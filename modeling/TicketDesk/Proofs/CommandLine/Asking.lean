import TicketDesk.Proofs.CommandLine.Overrides
import TicketDesk.Proofs.CommandLine.Reading

/-! # Arguments that are read

The commands that make one request are exactly those that can be asked for: the values of each have texts that spell
them, and whatever command line asks for a request, its values spell the arguments of one. -/

namespace TicketDesk.CommandLine

/-! ### Values of options -/

/-- Whether a command makes one request out of the drafts. -/
def Command.isAsk : Command → Bool
  | .act _ _ => true
  | .queryOrder _ _ => true
  | _ => false

namespace Values.Gathered

variable {words : List String} {v : Values}

theorem exists_number (hv : v.Gathered words) (name : String) {f : Field} (hf : f.isNumeric = true)
    (hkind : ∀ p ∈ (levelOf words).parameters, p.name = name → p.kind = .integer) :
    ∃ n, (Choice.number name f n).In v := by
  cases hlookup : v.lookup name with
  | none => exact ⟨none, hlookup⟩
  | some text =>
    have hgood := hv.complaint .integer hkind hlookup
    cases hn : Text.int64? text.toList with
    | none =>
      rw [Kind.complaint?, hn] at hgood
      cases hgood
    | some n => exact ⟨some n, text, hlookup, .number hf (Text.int64?_eq_some_iff.mp hn)⟩

end Values.Gathered

theorem Choice.in_text (v : Values) (name : String) {f : Field} (hf : f.isNumeric = false) :
    (Choice.text name f (v.lookup name)).In v := by
  cases hlookup : v.lookup name with
  | none => exact hlookup
  | some text => exact ⟨text, hlookup, .text hf text⟩

/-- A command that makes one request is named by the words of one. -/
theorem exists_words_of_isAsk {words : List String} {v : Values} {command : Command}
    (h : commandOf? words v = some command) (hask : command.isAsk = true) : ∃ q : Ask, q.words = words := by
  unfold commandOf? at h
  split at h
  case h_6 => exact ⟨.create none none, rfl⟩
  case h_7 => exact ⟨.reserve none, rfl⟩
  case h_8 => exact ⟨.pay none none none, rfl⟩
  case h_9 => exact ⟨.get none, rfl⟩
  case h_10 => exact ⟨.tryHold none none none none, rfl⟩
  case h_11 => exact ⟨.release none none, rfl⟩
  case h_12 => exact ⟨.confirm none none, rfl⟩
  case h_13 => exact ⟨.availability none, rfl⟩
  case h_14 => exact ⟨.query none, rfl⟩
  all_goals
    simp only [Option.bind_eq_bind, Option.bind_eq_some_iff, Option.map_eq_some_iff, Option.pure_def,
      Option.some.injEq] at h
    grind [Command.isAsk]

namespace Ask

variable {q : Ask} {v : Values}

theorem lookup_useCurrent (hv : v.Gathered q.words) (hq : q.words ≠ ["query", "order"]) :
    v.lookup "use-current" = none := by
  refine hv.lookup_eq_none ?_
  cases q
  case query | queryCurrent => exact absurd rfl hq
  all_goals simp [words, levelOf, leaf, Level.parameters, common, option, lettered]

/-- The query has an order id or the switch, and not both. -/
theorem exists_query (hv : v.Gathered ["query", "order"]) :
    ∃ q : Ask, q.words = ["query", "order"] ∧ q.Spelled v := by
  cases hswitch : v.lookup "use-current" with
  | none =>
    refine ⟨.query (v.lookup "order-id"), rfl, ?_, by simp [hswitch]⟩
    exact List.forall_mem_singleton.mpr (Choice.in_text v "order-id" rfl)
  | some given =>
    have hid : v.lookup "order-id" = none :=
      (hv.rivals "use-current" "order-id" rfl).resolve_left (by simp [hswitch])
    refine ⟨.queryCurrent, rfl, ?_, by simp [hswitch]⟩
    exact List.forall_mem_singleton.mpr hid

/-- Whatever values a command has, they are arguments of it. -/
theorem exists_spelled (hv : v.Gathered q.words) : ∃ q' : Ask, q'.words = q.words ∧ q'.Spelled v := by
  have hspelled (q' : Ask) (hwords : q'.words = q.words) (hquery : q.words ≠ ["query", "order"])
      (h : ∀ o ∈ q'.choices, o.In v) : ∃ q' : Ask, q'.words = q.words ∧ q'.Spelled v := by
    refine ⟨q', hwords, h, ?_⟩
    rw [lookup_useCurrent hv hquery]
    exact ⟨fun h => absurd h Bool.false_ne_true, fun hcurrent => absurd (hwords ▸ hcurrent ▸ rfl) hquery⟩
  cases q with
  | create =>
    have hv : v.Gathered ["order", "create"] := hv
    obtain ⟨cents, hcents⟩ := hv.exists_number "amount-cents" (f := .amountCents) rfl (by decide +kernel)
    refine hspelled (.create (v.lookup "idempotency-key") cents) rfl (by simp [words]) ?_
    simp only [choices, List.forall_mem_cons]
    exact ⟨Choice.in_text v _ rfl, hcents, List.forall_mem_nil _⟩
  | reserve =>
    refine hspelled (.reserve (v.lookup "order-id")) rfl (by simp [words]) ?_
    exact List.forall_mem_singleton.mpr (Choice.in_text v _ rfl)
  | pay =>
    refine hspelled (.pay (v.lookup "order-id") (v.lookup "txn-id") (v.lookup "status")) rfl (by simp [words]) ?_
    simp only [choices, List.forall_mem_cons]
    exact ⟨Choice.in_text v _ rfl, Choice.in_text v _ rfl, Choice.in_text v _ rfl, List.forall_mem_nil _⟩
  | get =>
    refine hspelled (.get (v.lookup "order-id")) rfl (by simp [words]) ?_
    exact List.forall_mem_singleton.mpr (Choice.in_text v _ rfl)
  | tryHold =>
    have hv : v.Gathered ["inventory", "try-hold"] := hv
    obtain ⟨qty, hqty⟩ := hv.exists_number "qty" (f := .qty) rfl (by decide +kernel)
    obtain ⟨capacity, hcapacity⟩ := hv.exists_number "capacity" (f := .capacity) rfl (by decide +kernel)
    refine hspelled (.tryHold (v.lookup "partition-key") (v.lookup "hold-id") qty capacity) rfl (by simp [words]) ?_
    simp only [choices, List.forall_mem_cons]
    exact ⟨Choice.in_text v _ rfl, Choice.in_text v _ rfl, hqty, hcapacity, List.forall_mem_nil _⟩
  | release =>
    refine hspelled (.release (v.lookup "partition-key") (v.lookup "hold-id")) rfl (by simp [words]) ?_
    simp only [choices, List.forall_mem_cons]
    exact ⟨Choice.in_text v _ rfl, Choice.in_text v _ rfl, List.forall_mem_nil _⟩
  | confirm =>
    refine hspelled (.confirm (v.lookup "partition-key") (v.lookup "hold-id")) rfl (by simp [words]) ?_
    simp only [choices, List.forall_mem_cons]
    exact ⟨Choice.in_text v _ rfl, Choice.in_text v _ rfl, List.forall_mem_nil _⟩
  | availability =>
    refine hspelled (.availability (v.lookup "partition-key")) rfl (by simp [words]) ?_
    exact List.forall_mem_singleton.mpr (Choice.in_text v _ rfl)
  | query => exact exists_query hv
  | queryCurrent => exact exists_query hv

/-- Every command line that asks for one request spells the arguments of a command. -/
theorem exists_of_read {args : List String} {i : Invocation} {command : Command} (h : read args = .ok i)
    (hcommand : i.command = some command) (hask : command.isAsk = true) :
    ∃ (q : Ask) (v : Values), q.Spelled v ∧ commandOf? q.words v = some command := by
  obtain ⟨words, v, -, hv, hmeans⟩ := read_eq_ok h hcommand
  obtain ⟨q, rfl⟩ := exists_words_of_isAsk hmeans hask
  obtain ⟨q', hwords, hspelled⟩ := exists_spelled hv
  exact ⟨q', v, hspelled, hwords ▸ hmeans⟩

/-- Choices with names of their own can be made at once, when their values can be spelled. -/
theorem exists_values_of_choices {os : List Choice} (hnodup : (os.map (·.name)).Nodup)
    (hspells : ∀ o ∈ os, ∀ value, o.given = some value → ∃ text, o.field.Spells text value) :
    ∃ v : Values, (∀ o ∈ os, o.In v) ∧ ∀ name, name ∉ os.map (·.name) → v.lookup name = none := by
  induction os with
  | nil => exact ⟨[], List.forall_mem_nil _, fun _ _ => rfl⟩
  | cons o os ih =>
    rw [List.map_cons, List.nodup_cons] at hnodup
    rw [List.forall_mem_cons] at hspells
    obtain ⟨v, hin, hnone⟩ := ih hnodup.2 hspells.2
    cases hgiven : o.given with
    | none =>
      refine ⟨v, List.forall_mem_cons.mpr ⟨?_, hin⟩, fun name hname => ?_⟩
      · rw [Choice.In, hgiven]
        exact hnone o.name hnodup.1
      · exact hnone name (fun hmem => hname (List.mem_cons_of_mem _ hmem))
    | some value =>
      obtain ⟨text, htext⟩ := hspells.1 value hgiven
      have hother {name : String} (hname : name ≠ o.name) : ((o.name, text) :: v).lookup name = v.lookup name := by
        rw [List.lookup_cons, beq_false_of_ne hname]
      refine ⟨(o.name, text) :: v, List.forall_mem_cons.mpr ⟨?_, fun o' ho' => ?_⟩, fun name hname => ?_⟩
      · rw [Choice.In, hgiven]
        exact ⟨text, List.lookup_cons_self, htext⟩
      · have hne : o'.name ≠ o.name := fun heq => hnodup.1 (heq ▸ List.mem_map_of_mem ho')
        rw [Choice.In, hother hne]
        exact hin o' ho'
      · rw [List.map_cons, List.mem_cons, not_or] at hname
        rw [hother hname.1]
        exact hnone name hname.2

/-- Every command with arguments can be asked for by options. -/
theorem exists_values (q : Ask) : ∃ v, q.Spelled v := by
  by_cases hq : q = .queryCurrent
  · subst hq
    exact ⟨[("use-current", "")], List.forall_mem_singleton.mpr rfl, fun _ => rfl, fun _ => rfl⟩
  · have hnodup : (q.choices.map (·.name)).Nodup := by
      cases q <;> simp [choices, Choice.text, Choice.number]
    have hspells : ∀ o ∈ q.choices, ∀ value, o.given = some value → ∃ text, o.field.Spells text value := by
      have htext {name : String} {f : Field} {given : Option String} (hf : f.isNumeric = false) :
          ∀ value, (Choice.text name f given).given = some value → ∃ text, f.Spells text value := by
        intro value hvalue
        obtain ⟨text, -, rfl⟩ := Option.map_eq_some_iff.mp hvalue
        exact ⟨text, .text hf text⟩
      have hnumber {name : String} {f : Field} {given : Option Int64} (hf : f.isNumeric = true) :
          ∀ value, (Choice.number name f given).given = some value → ∃ text, f.Spells text value := by
        intro value hvalue
        obtain ⟨n, -, rfl⟩ := Option.map_eq_some_iff.mp hvalue
        refine ⟨String.ofList (Text.showInt n.toInt), .number hf ?_⟩
        rw [String.toList_ofList]
        exact Text.denotes_showInt _
      cases q <;> simp only [choices, List.forall_mem_cons]
      all_goals (repeat' apply And.intro) <;> first | exact htext rfl | exact hnumber rfl | exact List.forall_mem_nil _
    obtain ⟨v, hin, hnone⟩ := exists_values_of_choices hnodup hspells
    refine ⟨v, hin, ?_⟩
    rw [hnone "use-current" (by cases q <;> simp [choices, Choice.text, Choice.number])]
    exact ⟨fun h => absurd h Bool.false_ne_true, fun hcurrent => absurd hcurrent hq⟩

end Ask

end TicketDesk.CommandLine
