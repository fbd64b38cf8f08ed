import Mathlib.Data.List.Nodup
import TicketDesk.CommandLine.Command

/-! # Values that are read

Whatever arguments are read, each value belongs to one of the options and places that may be given, it was checked for
what that is for, and nothing is given twice. What must be given is there, and of two options that exclude each other
there is one at most. So the values always make up the command that is named, and reading is where a command line is
refused. -/

namespace TicketDesk.CommandLine

theorem exists_of_bind_eq_ok {ε α β : Type} {x : Except ε α} {f : α → Except ε β} {b : β} (h : x >>= f = .ok b) :
    ∃ a, x = .ok a ∧ f a = .ok b := by
  cases x with
  | error e => cases h
  | ok a => exact ⟨a, rfl, h⟩

/-- All that may be given at a level. -/
def Level.parameters (level : Level) : List Parameter := level.options ++ level.places

/-- Each value belongs to a parameter and passes its check, and no parameter has two. -/
structure Values.Sound (ps : List Parameter) (v : Values) : Prop where
  checked : ∀ m ∈ v, ∃ p ∈ ps, p.name = m.1 ∧ p.kind.complaint? m.2 = none
  distinct : (v.map (·.1)).Nodup

/-- The values are sound, all that a level demands are there, and its rivals are not both there. -/
structure Values.Accepted (level : Level) (v : Values) : Prop extends v.Sound level.parameters where
  required : ∀ p ∈ level.parameters, p.isRequired = true → p.name ∈ v.map (·.1)
  rivals : ∀ a b, level.rivals = some (a, b) → ¬(a ∈ v.map (·.1) ∧ b ∈ v.map (·.1))

theorem Values.any_eq_true_iff {v : Values} {name : String} :
    v.any (·.1 == name) = true ↔ name ∈ v.map (·.1) := by
  simp only [List.any_eq_true, beq_iff_eq, List.mem_map]

namespace Reading

/-- The values are sound, and so are the parameters whose values are still to come. -/
structure Sound (ps : List Parameter) (r : Reading) : Prop where
  values : r.values.Sound ps
  current : ∀ p value, r.current = some (p, value) → p ∈ ps
  places : ∀ p ∈ r.places, p ∈ ps

variable {ps : List Parameter} {level : Level} {r r' : Reading} {p : Parameter}

/-! ### One value -/

/-- A value that is added was not given before and passes its check. -/
theorem add_eq_ok {value : Option String} (h : r.add p value = .ok r') :
    ∃ text, p.kind.complaint? text = none ∧ p.name ∉ r.values.map (·.1) ∧
      r' = { r with values := r.values ++ [(p.name, text)], current := none } := by
  have hkeep {text : String} (hcomplaint : p.kind.complaint? text = none) (h : add.keep r p text = .ok r') :
      ∃ text, p.kind.complaint? text = none ∧ p.name ∉ r.values.map (·.1) ∧
        r' = { r with values := r.values ++ [(p.name, text)], current := none } := by
    unfold add.keep at h
    split at h
    case isTrue => cases h
    case isFalse hany => exact ⟨text, hcomplaint, mt Values.any_eq_true_iff.mpr hany, (Except.ok.inj h).symm⟩
  unfold add at h
  split at h
  · cases h
  · cases h
  · next hkind => exact hkeep (by rw [hkind]; rfl) h
  · cases h
  · split at h
    · cases h
    · split at h
      · cases h
      · next hcomplaint => exact hkeep hcomplaint h

theorem Sound.add (h : r.Sound ps) (hp : p ∈ ps) {value : Option String} (hadd : r.add p value = .ok r') :
    r'.Sound ps := by
  obtain ⟨text, hcomplaint, hnew, rfl⟩ := add_eq_ok hadd
  refine ⟨⟨?_, ?_⟩, fun _ _ hcurrent => (by cases hcurrent), h.places⟩
  · rw [List.forall_mem_append, List.forall_mem_singleton]
    exact ⟨h.values.checked, p, hp, rfl, hcomplaint⟩
  · rw [List.map_append, List.map_singleton]
    exact List.nodup_append.mpr ⟨h.values.distinct, List.nodup_singleton _, by
      simp only [List.mem_singleton]
      rintro a ha b rfl rfl
      exact hnew ha⟩

theorem Sound.settle (h : r.Sound ps) (hsettle : r.settle = .ok r') : r'.Sound ps := by
  unfold Reading.settle at hsettle
  split at hsettle
  · obtain rfl := Except.ok.inj hsettle
    exact h
  · next p value hcurrent =>
    have hcleared : ({ r with current := none } : Reading).Sound ps :=
      ⟨h.values, fun _ _ hnone => (by cases hnone), h.places⟩
    exact hcleared.add (h.current p value hcurrent) hsettle

theorem Sound.begin (h : r.Sound ps) (hp : p ∈ ps) {value : Option String} (hbegin : r.begin p value = .ok r') :
    r'.Sound ps := by
  cases hsettle : r.settle with
  | error e =>
    rw [Reading.begin, hsettle] at hbegin
    cases hbegin
  | ok s =>
    rw [Reading.begin, hsettle] at hbegin
    obtain rfl := Except.ok.inj hbegin
    have hs := h.settle hsettle
    exact ⟨hs.values, fun _ _ hcurrent => (by cases hcurrent; exact hp), hs.places⟩

/-! ### One argument -/

theorem Sound.takeOption (h : r.Sound ps) (hp : p ∈ ps) {value : Option String}
    (htake : r.takeOption p value = .ok r') : r'.Sound ps := by
  unfold Reading.takeOption at htake
  split at htake
  · exact h.begin hp htake
  · cases htake
  · obtain ⟨s, hsettle, hadd⟩ := exists_of_bind_eq_ok htake
    exact (h.settle hsettle).add hp hadd

theorem Sound.takePlace (h : r.Sound ps) {argument : String} (htake : r.takePlace level argument = .ok r') :
    r'.Sound ps := by
  unfold Reading.takePlace at htake
  split at htake
  · next p rest hplaces =>
    have hrest : ({ r with places := rest } : Reading).Sound ps :=
      ⟨h.values, h.current, fun q hq => h.places q (hplaces ▸ List.mem_cons_of_mem p hq)⟩
    exact hrest.begin (h.places p (hplaces ▸ List.mem_cons_self)) htake
  · split at htake <;> cases htake

theorem Sound.takeLetters (hoptions : ∀ p ∈ level.options, p ∈ ps) (h : r.Sound ps) {cs : List Char}
    (htake : takeLetters level r cs = .ok r') : r'.Sound ps := by
  induction cs generalizing r with
  | nil =>
    obtain rfl := Except.ok.inj htake
    exact h
  | cons c cs ih =>
    unfold Reading.takeLetters at htake
    split at htake
    · cases htake
    · next p hfind =>
      have hp : p ∈ ps := hoptions p (List.mem_of_find?_eq_some hfind)
      split at htake
      · split at htake
        · exact h.takeOption hp htake
        · exact h.takeOption hp htake
        · exact h.takeOption hp htake
      · split at htake
        · next s hs => exact ih (h.takeOption hp hs) htake
        · cases htake

theorem Sound.take (hoptions : ∀ p ∈ level.options, p ∈ ps) (h : r.Sound ps) {argument : String}
    (htake : r.take level argument = .ok r') : r'.Sound ps := by
  unfold Reading.take at htake
  split at htake
  · exact h.takePlace htake
  · split at htake
    · obtain rfl := Except.ok.inj htake
      exact ⟨h.values, h.current, h.places⟩
    · unfold Reading.takeName at htake
      dsimp only at htake
      split at htake
      · cases htake
      · next p hfind => exact h.takeOption (hoptions p (List.mem_of_find?_eq_some hfind)) htake
    · exact h.takeLetters hoptions htake
    · split at htake
      · next p hcurrent =>
        obtain rfl := Except.ok.inj htake
        exact ⟨h.values, fun _ _ hq => (by cases hq; exact h.current p none hcurrent), h.places⟩
      · exact h.takePlace htake

/-! ### All arguments -/

theorem Sound.start {places : List Parameter} (h : ∀ p ∈ places, p ∈ ps) : Reading.Sound ps { places := places } where
  values := ⟨fun _ hm => (by cases hm), List.nodup_nil⟩
  current _ _ hnone := by cases hnone
  places := h

theorem Sound.takeAll (hoptions : ∀ p ∈ level.options, p ∈ ps) (h : r.Sound ps) {args : List String}
    {next : Option (String × List String)} (htake : takeAll level r args = .ok (r', next)) : r'.Sound ps := by
  induction args generalizing r with
  | nil =>
    cases htake
    exact h
  | cons argument rest ih =>
    unfold Reading.takeAll at htake
    split at htake
    · cases htake
      exact h
    · split at htake
      · next s hs => exact ih (h.take hoptions hs) htake
      · cases htake

/-- What follows the name of a command is behind one of the names that may stand there. -/
theorem mem_commands_of_takeAll {args rest : List String} {word : String}
    (htake : takeAll level r args = .ok (r', some (word, rest))) : word ∈ level.commands := by
  induction args generalizing r with
  | nil => cases htake
  | cons argument args ih =>
    unfold Reading.takeAll at htake
    split at htake
    · next hword =>
      cases htake
      simp only [Bool.and_eq_true, List.contains_iff_mem] at hword
      exact hword.2
    · split at htake
      · exact ih htake
      · cases htake

/-- Arguments that are read to their end leave values that a level accepts. -/
theorem Sound.finish (h : r.Sound level.parameters) {hasCommand : Bool} {v : Values}
    (hfinish : r.finish level hasCommand = .ok v) : v.Accepted level := by
  obtain ⟨s, hsettle, hfinish⟩ := exists_of_bind_eq_ok hfinish
  have hs := h.settle hsettle
  dsimp only at hfinish
  split at hfinish
  · cases hfinish
  · split at hfinish
    · cases hfinish
    · next hrivals =>
      split at hfinish
      · cases hfinish
      · next hrequired =>
        obtain rfl := Except.ok.inj hfinish
        refine ⟨hs.values, fun p hp hneeded => ?_, fun a b hpair hboth => hrivals ?_⟩
        · by_contra hmissing
          refine hrequired (List.any_eq_true.mpr ⟨p, hp, ?_⟩)
          rw [hneeded, Bool.true_and, Bool.not_eq_true', Bool.eq_false_iff]
          exact mt Values.any_eq_true_iff.mp hmissing
        · rw [hpair, Option.any_some, Bool.and_eq_true]
          exact hboth.imp Values.any_eq_true_iff.mpr Values.any_eq_true_iff.mpr

end Reading

/-! ### The values of a command -/

/-- What is known of the values of a command, whether they are given before its second word or after it. -/
structure Values.Gathered (words : List String) (v : Values) : Prop where
  checked : ∀ name text, v.lookup name = some text →
    ∃ p ∈ (levelOf words).parameters, p.name = name ∧ p.kind.complaint? text = none
  required : ∀ p ∈ (levelOf words).parameters, p.isRequired = true → ∃ text, v.lookup p.name = some text
  rivals : ∀ a b, (levelOf words).rivals = some (a, b) → v.lookup a = none ∨ v.lookup b = none

/-- The words of a command: a first word, with a second one if it has some. -/
def phrases : List (List String) :=
  families.flatMap fun (first, seconds) => if seconds.isEmpty then [[first]] else seconds.map ([first, ·])

theorem mem_phrases {first second : String} {seconds : List String} (h : (first, seconds) ∈ families)
    (hsecond : second ∈ seconds) : [first, second] ∈ phrases := by
  refine List.mem_flatMap.mpr ⟨(first, seconds), h, ?_⟩
  cases seconds with
  | nil => cases hsecond
  | cons s ss => exact List.mem_map_of_mem hsecond

section Gathered

variable {words : List String} {v inner outer : Values} {name text : String}

theorem mem_of_lookup {β : Type} {entries : List (String × β)} {b : β} (h : entries.lookup name = some b) :
    (name, b) ∈ entries := by
  obtain ⟨before, after, rfl, -⟩ := List.lookup_eq_some_iff.mp h
  exact List.mem_append_right before List.mem_cons_self

theorem Values.exists_lookup_iff : (∃ text, v.lookup name = some text) ↔ name ∈ v.map (·.1) := by
  rw [← Option.isSome_iff_exists, List.lookup_isSome_iff, List.mem_map]
  simp only [beq_iff_eq, eq_comm (a := name)]

theorem mem_parameters_of_mem_common (words : List String) {p : Parameter} (h : p ∈ common) :
    p ∈ (levelOf words).parameters := by
  have hleaf (options places : List Parameter) : p ∈ (leaf options places).parameters :=
    List.mem_append_left _ (List.mem_append_right _ h)
  unfold levelOf
  split <;> exact hleaf _ _

theorem not_mem_common_of_rivals {a b : String} (h : (levelOf words).rivals = some (a, b)) :
    a ∉ common.map (·.name) ∧ b ∉ common.map (·.name) := by
  unfold levelOf at h
  split at h <;> cases h
  simp [common, option, lettered]

theorem Values.Accepted.gathered (hinner : inner.Accepted (levelOf words)) (houter : outer.Sound common) :
    (inner ++ outer).Gathered words where
  checked name text h := by
    rcases List.mem_append.mp (mem_of_lookup h) with hmem | hmem
    · exact hinner.checked _ hmem
    · obtain ⟨p, hp, hgood⟩ := houter.checked _ hmem
      exact ⟨p, mem_parameters_of_mem_common words hp, hgood⟩
  required p hp hneeded := by
    rw [exists_lookup_iff, List.map_append, List.mem_append]
    exact Or.inl (hinner.required p hp hneeded)
  rivals a b h := by
    have hgiven {name : String} (hname : name ∉ common.map (·.name)) (hsome : (inner ++ outer).lookup name ≠ none) :
        name ∈ inner.map (·.1) := by
      obtain ⟨text, htext⟩ := Option.ne_none_iff_exists'.mp hsome
      rcases List.mem_append.mp (mem_of_lookup htext) with hmem | hmem
      · exact List.mem_map_of_mem hmem
      · obtain ⟨p, hp, rfl, -⟩ := houter.checked _ hmem
        exact absurd (List.mem_map_of_mem hp) hname
    obtain ⟨ha, hb⟩ := not_mem_common_of_rivals h
    by_contra hboth
    rw [not_or] at hboth
    exact hinner.rivals a b h ⟨hgiven ha hboth.1, hgiven hb hboth.2⟩

theorem readLeaf_eq_ok {args words' : List String} (h : readLeaf words args = .ok (words', v)) :
    words' = words ∧ v.Accepted (levelOf words) := by
  obtain ⟨⟨r, next⟩, htake, h⟩ := exists_of_bind_eq_ok h
  obtain ⟨v', hfinish, h⟩ := exists_of_bind_eq_ok h
  cases h
  have hr := (Reading.Sound.start fun _ => List.mem_append_right _).takeAll (fun _ => List.mem_append_left _) htake
  exact ⟨rfl, hr.finish hfinish⟩

/-- The words that are read are those of a command, and its values are as they must be. -/
theorem readWord_eq_ok {word : String} {args : List String} (h : readWord word args = .ok (words, v)) :
    words ∈ phrases ∧ v.Gathered words := by
  unfold readWord at h
  split at h
  · cases h
  · next hfamily =>
    obtain ⟨rfl, hv⟩ := readLeaf_eq_ok h
    refine ⟨List.mem_flatMap.mpr ⟨_, mem_of_lookup hfamily, List.mem_singleton_self _⟩, ?_⟩
    have hnone : Values.Sound common [] := ⟨fun _ hm => (by cases hm), List.nodup_nil⟩
    exact v.append_nil ▸ hv.gathered hnone
  · next seconds hsome hfamily =>
    obtain ⟨⟨r, next⟩, htake, h⟩ := exists_of_bind_eq_ok h
    dsimp only at h
    split at h
    · obtain ⟨_, _, h⟩ := exists_of_bind_eq_ok h
      cases h
    · cases h
    · next second rest hhelp =>
      obtain ⟨⟨words', inner⟩, hleaf, h⟩ := exists_of_bind_eq_ok h
      obtain ⟨outer, hfinish, h⟩ := exists_of_bind_eq_ok h
      cases h
      obtain ⟨rfl, hinner⟩ := readLeaf_eq_ok hleaf
      have hr : r.Sound (family seconds).parameters :=
        (Reading.Sound.start fun _ hp => (by cases hp)).takeAll (fun _ => List.mem_append_left _) htake
      have hsecond : second ∈ seconds := by
        have hmem := Reading.mem_commands_of_takeAll htake
        rcases List.mem_append.mp hmem with hmem | hmem
        · exact hmem
        · exact absurd (List.mem_singleton.mp hmem) hhelp
      exact ⟨mem_phrases (mem_of_lookup hfamily) hsecond, hinner.gathered (hr.finish hfinish).toSound⟩

/-! ### The command that is meant -/

/-- What is found under a name passes the check of the kind of value that the name has. -/
theorem Values.Gathered.complaint (hv : v.Gathered words) (kind : Kind)
    (hkind : ∀ p ∈ (levelOf words).parameters, p.name = name → p.kind = kind) (h : v.lookup name = some text) :
    kind.complaint? text = none := by
  obtain ⟨p, hp, hname, hgood⟩ := hv.checked name text h
  exact hkind p hp hname ▸ hgood

theorem Values.Gathered.lookup_eq_none (hv : v.Gathered words) (h : ∀ p ∈ (levelOf words).parameters, p.name ≠ name) :
    v.lookup name = none := by
  cases hlookup : v.lookup name with
  | none => rfl
  | some text =>
    obtain ⟨p, hp, hname, -⟩ := hv.checked name text hlookup
    exact absurd hname (h p hp)

theorem Values.Gathered.exists_of_required (hv : v.Gathered words) (name : String)
    (h : ∃ p ∈ (levelOf words).parameters, p.name = name ∧ p.isRequired = true) :
    ∃ text, v.lookup name = some text := by
  obtain ⟨p, hp, rfl, hneeded⟩ := h
  exact hv.required p hp hneeded

theorem exists_exec (hv : v.Gathered ["exec"]) : ∃ command, commandOf? ["exec"] v = some command := by
  obtain ⟨service, hservice⟩ := hv.exists_of_required "service" (by decide +kernel)
  obtain ⟨path, hpath⟩ := hv.exists_of_required "path" (by decide +kernel)
  have hnamed : ∃ s, Service.ofName? service = some s := by
    have hgood := hv.complaint .service (by decide +kernel) hservice
    simpa [Kind.complaint?, Option.isSome_iff_exists] using hgood
  have hmethod : ∃ m, Method.ofUserText? ((v.lookup "method").getD "GET") = some m := by
    cases hlookup : v.lookup "method" with
    | none => exact ⟨.get, rfl⟩
    | some text =>
      have hgood := hv.complaint .method (by decide +kernel) hlookup
      simpa [Kind.complaint?, Option.isSome_iff_exists] using hgood
  obtain ⟨s, hs⟩ := hnamed
  obtain ⟨m, hm⟩ := hmethod
  refine ⟨.exec s m path (v.lookup "body") (v.lookup "label"), ?_⟩
  simp [commandOf?, hservice, hpath, hs, hm]

theorem exists_setDraft (hv : v.Gathered ["draft", "set"]) :
    ∃ command, commandOf? ["draft", "set"] v = some command := by
  obtain ⟨field, hfield⟩ := hv.exists_of_required "field" (by decide +kernel)
  obtain ⟨value, hvalue⟩ := hv.exists_of_required "value" (by decide +kernel)
  have hnamed : ∃ f, Field.ofName? field = some f := by
    have hgood := hv.complaint .field (by decide +kernel) hfield
    simpa [Kind.complaint?, Option.isSome_iff_exists] using hgood
  obtain ⟨f, hf⟩ := hnamed
  refine ⟨.setDraft f value, ?_⟩
  simp [commandOf?, hfield, hvalue, hf]

/-- What a command cannot be without was demanded, and what could be wrong with its values was checked. -/
theorem exists_commandOf (hwords : words ∈ phrases) (hv : v.Gathered words) :
    ∃ command, commandOf? words v = some command := by
  have hreference (word : String) (h : ∃ p ∈ (levelOf ["history", word]).parameters,
      p.name = "reference" ∧ p.isRequired = true) {f : String → Command} (hv : v.Gathered ["history", word]) :
      ∃ command, (v.lookup "reference").map f = some command := by
    obtain ⟨reference, hlookup⟩ := hv.exists_of_required _ h
    exact ⟨f reference, by rw [hlookup, Option.map_some]⟩
  simp only [phrases, List.isEmpty_iff, families, List.flatMap_cons, ↓reduceIte, reduceCtorEq, List.map_cons,
    List.map_nil, List.cons_ne_self, List.flatMap_nil, List.append_nil, List.cons_append, List.nil_append,
    List.mem_cons, List.not_mem_nil, or_false] at hwords
  rcases hwords with rfl | rfl | rfl | rfl | rfl | rfl | rfl | rfl | rfl | rfl | rfl | rfl | rfl | rfl | rfl | rfl |
    rfl | rfl | rfl | rfl | rfl | rfl | rfl | rfl
  all_goals
    first
    | exact ⟨_, rfl⟩
    | exact exists_exec hv
    | exact exists_setDraft hv
    | exact hreference _ (by decide +kernel) hv

/-- Words and values that are read make up a command. -/
theorem exists_command_of_readWord {word : String} {args : List String} (h : readWord word args = .ok (words, v)) :
    ∃ command, commandOf? words v = some command := by
  obtain ⟨hwords, hv⟩ := readWord_eq_ok h
  exact exists_commandOf hwords hv

/-- A command line that is read has a command if it has a word, with the words and values that make it up. -/
theorem read_eq_ok {args : List String} {i : Invocation} {command : Command} (h : read args = .ok i)
    (hcommand : i.command = some command) :
    ∃ words v, words ∈ phrases ∧ v.Gathered words ∧ commandOf? words v = some command := by
  obtain ⟨⟨r, next⟩, htake, h⟩ := exists_of_bind_eq_ok h
  dsimp only at h
  split at h
  · obtain ⟨v, hfinish, h⟩ := exists_of_bind_eq_ok h
    cases h
    cases hcommand
  · cases h
  · obtain ⟨⟨words, inner⟩, hword, h⟩ := exists_of_bind_eq_ok h
    obtain ⟨outer, hfinish, h⟩ := exists_of_bind_eq_ok h
    dsimp only at h
    obtain ⟨hwords, hv⟩ := readWord_eq_ok hword
    split at h
    · next command' hmeans =>
      cases h
      cases hcommand
      exact ⟨words, inner, hwords, hv, hmeans⟩
    · cases h

end Gathered

end TicketDesk.CommandLine
