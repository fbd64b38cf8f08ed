import TicketDesk.Proofs.CommandLine.Job
import TicketDesk.Proofs.CommandLine.Reload
import TicketDesk.Proofs.Wire

/-! # Drafts set by options

The options of a command are edits of the drafts that come before its request. They are made of values that are known
to be good, so every edit is taken: the drafts end up with the values that are given and keep the others, and are stored
like that before the request is made out of them. What becomes of the request does not touch them, but for the order id
of an order that was created. -/

namespace TicketDesk

/-! ### Texts of values -/

/-- A text that stands for a value of a field on the command line: for a number, any numeral of it. -/
inductive Field.Spells (f : Field) : String → Json → Prop where
  | text (h : f.isNumeric = false) (text : String) : f.Spells text (.text text)
  | number {text : String} {n : Int64} (h : f.isNumeric = true) (hn : Text.Denotes text.toList n.toInt) :
    f.Spells text (.ofInt64 n)

namespace Drafts

/-- A field is set to the value that a text stands for, and the others are left. -/
theorem exists_set (d : Drafts) {f : Field} {text : String} {v : Json} (h : f.Spells text v) :
    ∃ e, d.set f (if f.isNumeric then CommandLine.plainInteger text else text) = .ok e ∧ e.value f = v ∧
      ∀ g, g ≠ f → e.value g = d.value g := by
  cases h with
  | text h =>
    rw [if_neg (by simp [h])]
    cases f
    case amountCents | qty | capacity => cases h
    all_goals
      refine ⟨_, rfl, rfl, fun g hg => ?_⟩
      cases g <;> trivial
  | number h hn =>
    rename_i n
    have hplain : CommandLine.plainInteger text = showWord n := by
      rw [CommandLine.plainInteger, Text.int64?_eq_some_iff.mpr hn]
      rfl
    rw [if_pos h, hplain]
    cases f
    case amountCents | qty | capacity =>
      rw [set, number_showWord]
      refine ⟨_, rfl, rfl, fun g hg => ?_⟩
      cases g <;> trivial
    all_goals cases h

end Drafts

/-! ### Drafts in a store -/

/-- Every write succeeds, and the text of the drafts holds them. -/
structure Store.KeepsDrafts (s : Store) : Prop where
  accepts : ∀ n, s.backend.accepts n = true
  drafts : State.loadDrafts (s.backend.blobs .drafts) = s.state.drafts

namespace Store

variable {s : Store}

theorem keepsDrafts_load {b : Backend} (h : ∀ n, b.accepts n = true) : (load b).KeepsDrafts := ⟨h, rfl⟩

theorem KeepsDrafts.update (h : s.KeepsDrafts) (u : Update) : (s.update u).KeepsDrafts where
  accepts := (accepts_update s u).symm ▸ h.accepts
  drafts := by
    have hwritable : s.writable = true := h.accepts _
    rw [blobs_update_of_writable hwritable u .drafts]
    cases u with
    | drafts edit => exact State.loadDrafts_toJson _
    | _ => exact h.drafts

theorem KeepsDrafts.updateAll (h : s.KeepsDrafts) (us : List Update) : (s.updateAll us).KeepsDrafts := by
  induction us generalizing s with
  | nil => exact h
  | cons u us ih => exact ih (h.update u)

theorem replies_append (s : Store) (us us' : List Update) :
    s.replies (us ++ us') = s.replies us ++ (s.updateAll us).replies us' := by
  induction us generalizing s with
  | nil => rfl
  | cons u us ih => exact congrArg (u.reply s.state :: ·) (ih (s.update u))

/-- A store after edits of the drafts. -/
def editAll (s : Store) (edits : List DraftEdit) : Store := s.updateAll (edits.map .drafts)

end Store

/-! ### What a request leaves of the drafts -/

/-- A request leaves the drafts, or it is answered with the id of an order and puts it there. -/
theorem Request.drafts_execute {σ : Type} (c : Config) (r : Request) (w : World σ) (s : Store) (x : σ) :
    ((r.execute c).run w s x).2.1.state.drafts = s.state.drafts ∨
    r.hook = some .captureOrderId ∧ (∃ data, ((r.execute c).run w s x).1 = .ok data) ∧
      ∃ id, ((r.execute c).run w s x).2.1.state.drafts = { s.state.drafts with orderId := id } := by
  cases hb : c.baseUrl? r.call.service with
  | none => exact Or.inl (congrArg (·.state.drafts) (ends_of_no_base (w := w) (s := s) (x := x) hb).store)
  | some base =>
    cases hr : (w.send (r.wire base) x).1 with
    | unreachable detail => exact Or.inl (congrArg (·.state.drafts) (ends_of_unreachable (s := s) hb hr).2.store)
    | answer a =>
      obtain ⟨-, hanswered⟩ := ends_of_answer (s := s) hb hr
      by_cases hok : 200 ≤ a.status ∧ a.status < 300
      · obtain ⟨hdata, hcaptured⟩ := hanswered.success hok
        cases hhook : r.hook with
        | none => exact Or.inl (hcaptured.missing (Or.inl hhook))
        | some hook =>
          cases hook
          rcases hcaptured.orderId hhook with hnone | hid
          · exact Or.inl hnone
          · exact Or.inr ⟨rfl, ⟨_, hdata⟩, hid⟩
      · exact Or.inl (hanswered.failure hok).2

theorem Store.KeepsDrafts.execute {σ : Type} {s : Store} (h : s.KeepsDrafts) (c : Config) (r : Request) (w : World σ)
    (x : σ) : ((r.execute c).run w s x).2.1.KeepsDrafts := by
  rcases Request.store_execute_cases c r w s x with ⟨-, hstore⟩ | ⟨_, a, m, -, -, hstore⟩
  · rw [hstore]
    exact h
  · rw [hstore]
    exact (h.updateAll _).updateAll _

namespace CommandLine

/-! ### Options that set fields -/

/-- An option of a command, the field that it sets, and the value that it is given, if any. -/
structure Choice where
  name : String
  field : Field
  given : Option Json

namespace Choice

def text (name : String) (field : Field) (given : Option String) : Choice := ⟨name, field, given.map .text⟩

def number (name : String) (field : Field) (given : Option Int64) : Choice := ⟨name, field, given.map .ofInt64⟩

/-- A command line has the option with just this value, or does not have it. -/
def In (v : Values) (o : Choice) : Prop :=
  match o.given with
  | none => v.lookup o.name = none
  | some value => ∃ text, v.lookup o.name = some text ∧ o.field.Spells text value

end Choice

/-- The value that options give to a field. -/
def given (os : List Choice) (f : Field) : Option Json := (os.find? fun o => o.field = f).bind (·.given)

def fieldsOf (os : List Choice) : List (String × Field) := os.map fun o => (o.name, o.field)

theorem given_cons (o : Choice) (os : List Choice) (f : Field) :
    given (o :: os) f = if o.field = f then o.given else given os f := by
  by_cases h : o.field = f
  · simp [given, h]
  · simp [given, h]

theorem given_eq_none {os : List Choice} {f : Field} (h : f ∉ os.map (·.field)) : given os f = none := by
  induction os with
  | nil => rfl
  | cons o os ih =>
    rw [List.map_cons, List.mem_cons, not_or] at h
    rw [given_cons, if_neg (Ne.symm h.1), ih h.2]

/-- The edits that options stand for are all taken, and give the fields the values that the options have. -/
theorem setAll_editsOf {v : Values} {os : List Choice} (hnodup : (os.map (·.field)).Nodup) (h : ∀ o ∈ os, o.In v)
    (d : Drafts) :
    ∃ e, d.setAll (editsOf v (fieldsOf os)) = (e, .ok ()) ∧ ∀ f, e.value f = (given os f).getD (d.value f) := by
  induction os generalizing d with
  | nil => exact ⟨d, rfl, fun _ => rfl⟩
  | cons o os ih =>
    obtain ⟨name, field, value⟩ := o
    rw [List.map_cons, List.nodup_cons] at hnodup
    rw [List.forall_mem_cons] at h
    have hother : given os field = none := given_eq_none hnodup.1
    cases value with
    | none =>
      have hlookup : v.lookup name = none := h.1
      obtain ⟨e, hset, hvalue⟩ := ih hnodup.2 h.2 d
      refine ⟨e, by simpa [editsOf, fieldsOf, hlookup] using hset, fun f => ?_⟩
      rw [hvalue, given_cons]
      split
      · next hf => rw [← hf, hother]
      · rfl
    | some value =>
      obtain ⟨text, hlookup, hspells⟩ := h.1
      obtain ⟨d', hset, hown, hothers⟩ := d.exists_set hspells
      obtain ⟨e, hsets, hvalue⟩ := ih hnodup.2 h.2 d'
      refine ⟨e, by simpa [editsOf, fieldsOf, hlookup, Drafts.setAll, hset] using hsets, fun f => ?_⟩
      rw [hvalue, given_cons]
      split
      · next hf => rw [← hf, hother]; exact hown
      · next hf => rw [hothers f (Ne.symm hf)]

/-! ### Edits before a request -/

section Act

variable {σ : Type} {c : Config} {a : Action} {edits : List (Field × String)} {s : Store}

/-- The edits that come before the request of a command, in one go. -/
def overrides (edits : List (Field × String)) : List DraftEdit := if edits.isEmpty then [] else [.set edits]

theorem drafts_overrides (edits : List (Field × String)) (s : Store) :
    (s.editAll (overrides edits)).state.drafts = (s.state.drafts.setAll edits).1 := by
  cases edits <;> rfl

theorem replies_overrides (h : (s.state.drafts.setAll edits).2 = .ok ()) :
    ∀ reply ∈ s.replies ((overrides edits).map .drafts), reply = .ok () := by
  intro reply hreply
  cases edits with
  | nil => cases hreply
  | cons edit rest => exact (List.mem_singleton.mp hreply).trans h

/-- A job behind an edit that is taken is done after the edit. -/
theorem run_editDrafts {edit : DraftEdit} (h : (edit.apply s.state.drafts).2 = .ok ()) (job : Job) (w : World σ)
    (x : σ) :
    (editDrafts edit job).run w s x = job.run w (s.editAll [edit]) x ∧
      (editDrafts edit job).sent w s x = job.sent w (s.editAll [edit]) x := by
  constructor
  · rw [editDrafts, Work.run, Work.run, h]
    rfl
  · rw [editDrafts, Work.sent, Work.sent, h]
    rfl

/-- A command with options whose edits are taken is the command without them, done after the edits. -/
theorem run_act (h : (s.state.drafts.setAll edits).2 = .ok ()) (w : World σ) (x : σ) :
    (act c a edits).run w s x = (act c a []).run w (s.editAll (overrides edits)) x ∧
      (act c a edits).sent w s x = (act c a []).sent w (s.editAll (overrides edits)) x := by
  cases edits with
  | nil => exact ⟨rfl, rfl⟩
  | cons edit rest =>
    have htaken : ((DraftEdit.set (edit :: rest)).apply s.state.drafts).2 = .ok () := h
    exact run_editDrafts htaken _ w x

theorem run_act_nil (w : World σ) (s : Store) (x : σ) :
    ((act c a []).run w s x).1 = ending ((a.perform c).run w s x).1 ∧
      ((act c a []).run w s x).2.1 = ((a.perform c).run w s x).2.1 ∧
      (act c a []).sent w s x = (a.perform c).sent w s x := by
  have htail (data : Json) (s : Store) : Job.Ends (if a = .createOrder then
      .look fun s => Job.say (if s.drafts.orderId = "" then [] else ["Draft order id: " ++ s.drafts.orderId])
      else Job.ok) s s (.ok ()) := by
    split
    · exact .look (Job.ends_say s _)
    · exact Job.ends_ok s
  have hrun := run_report (a.perform c) htail w s x
  exact ⟨hrun.1, hrun.2, sent_report (a.perform c) htail w s x⟩

end Act

/-! ### Commands -/

/-- A command that makes one request out of the drafts, with its arguments. -/
inductive Ask where
  | create (idempotencyKey : Option String) (amountCents : Option Int64)
  | reserve (orderId : Option String)
  | pay (orderId txnId status : Option String)
  | get (orderId : Option String)
  | tryHold (partitionKey holdId : Option String) (qty capacity : Option Int64)
  | release (partitionKey holdId : Option String)
  | confirm (partitionKey holdId : Option String)
  | availability (partitionKey : Option String)
  | query (orderId : Option String)
  /-- The query for the current order. -/
  | queryCurrent

namespace Ask

def words : Ask → List String
  | .create _ _ => ["order", "create"]
  | .reserve _ => ["order", "reserve"]
  | .pay _ _ _ => ["order", "pay"]
  | .get _ => ["order", "get"]
  | .tryHold _ _ _ _ => ["inventory", "try-hold"]
  | .release _ _ => ["inventory", "release"]
  | .confirm _ _ => ["inventory", "confirm"]
  | .availability _ => ["inventory", "availability"]
  | .query _ => ["query", "order"]
  | .queryCurrent => ["query", "order"]

def action : Ask → Action
  | .create _ _ => .createOrder
  | .reserve _ => .reserveOrder
  | .pay _ _ _ => .paymentCallback
  | .get _ => .getOrder
  | .tryHold _ _ _ _ => .tryHold
  | .release _ _ => .releaseHold
  | .confirm _ _ => .confirmHold
  | .availability _ => .getAvailability
  | .query _ => .queryOrderView
  | .queryCurrent => .queryOrderView

def choices : Ask → List Choice
  | .create key cents => [.text "idempotency-key" .idempotencyKey key, .number "amount-cents" .amountCents cents]
  | .reserve id => [.text "order-id" .orderId id]
  | .pay id txn status =>
    [.text "order-id" .orderId id, .text "txn-id" .providerTxnId txn, .text "status" .paymentStatus status]
  | .get id => [.text "order-id" .orderId id]
  | .tryHold key hold qty capacity =>
    [.text "partition-key" .partitionKey key, .text "hold-id" .holdId hold, .number "qty" .qty qty,
     .number "capacity" .capacity capacity]
  | .release key hold => [.text "partition-key" .partitionKey key, .text "hold-id" .holdId hold]
  | .confirm key hold => [.text "partition-key" .partitionKey key, .text "hold-id" .holdId hold]
  | .availability key => [.text "partition-key" .partitionKey key]
  | .query id => [.text "order-id" .queryOrderId id]
  | .queryCurrent => [.text "order-id" .queryOrderId none]

/-- The value that a command gives to a field of drafts. -/
def given (d : Drafts) : Ask → Field → Option Json
  | .queryCurrent, .queryOrderId => some (d.value .orderId)
  | q, f => CommandLine.given q.choices f

/-- Options that give a command its arguments and no others. The current order is asked for by a switch, which excludes
    the option that names an order. -/
structure Spelled (v : Values) (q : Ask) : Prop where
  choices : ∀ o ∈ q.choices, o.In v
  current : (v.lookup "use-current").isSome = true ↔ q = .queryCurrent

variable {σ : Type} {c : Config} {q : Ask} {v : Values} {s : Store}

/-- The edits that come before those of the options. -/
def current : Ask → List DraftEdit
  | .queryCurrent => [.useCurrentOrderId]
  | _ => []

theorem nodup_fields (q : Ask) : (q.choices.map (·.field)).Nodup := by
  cases q <;> simp [choices, Choice.text, Choice.number]

theorem mem_fields_form (q : Ask) : ∀ f ∈ q.choices.map (·.field), f ∈ q.action.form.fields := by
  cases q <;> simp [choices, Choice.text, Choice.number, action, Action.form, Form.fields]

theorem mem_fields_of_given {d : Drafts} {f : Field} (h : q.given d f ≠ none) : f ∈ q.action.form.fields := by
  have hchoices (h : CommandLine.given q.choices f ≠ none) : f ∈ q.action.form.fields :=
    q.mem_fields_form f (by_contra fun hf => h (given_eq_none hf))
  unfold given at h
  split at h
  · decide
  · exact hchoices h

theorem replies_current (q : Ask) (s : Store) : ∀ reply ∈ s.replies (q.current.map .drafts), reply = .ok () := by
  intro reply hreply
  cases q with
  | queryCurrent => exact List.mem_singleton.mp hreply
  | _ => cases hreply

theorem value_current (q : Ask) (s : Store) (f : Field) :
    (CommandLine.given q.choices f).getD ((s.editAll q.current).state.drafts.value f) =
      (q.given s.state.drafts f).getD (s.state.drafts.value f) := by
  cases q with
  | queryCurrent => cases f <;> rfl
  | _ => rfl

/-- A command with options is its action with their edits, done in a store where the current order is asked for already
    if it is to be. -/
theorem exists_command (hv : q.Spelled v) :
    ∃ command, commandOf? q.words v = some command ∧ ∀ {s : Store} {session : Session}, s.state.session = some session →
      ∀ {σ : Type} (w : World σ) (x : σ),
        (command.job c).run w s x = (act c q.action (editsOf v (fieldsOf q.choices))).run w (s.editAll q.current) x ∧
        (command.job c).sent w s x = (act c q.action (editsOf v (fieldsOf q.choices))).sent w (s.editAll q.current) x := by
  have hjob {command : Command} {job : Job} (h : command.job c = withSession fun _ => job) {s : Store}
      {session : Session} (hs : s.state.session = some session) {σ : Type} (w : World σ) (x : σ) :
      (command.job c).run w s x = job.run w s x ∧ (command.job c).sent w s x = job.sent w s x := by
    rw [h]
    exact ⟨run_withSession hs w x, sent_withSession hs w x⟩
  have hedits : editsOf v [("order-id", .queryOrderId)] =
      (v.lookup "order-id").toList.map fun id => (.queryOrderId, id) := by
    cases hlookup : v.lookup "order-id" <;> simp [editsOf, hlookup, Field.isNumeric]
  cases q with
  | query id =>
    have hswitch : (v.lookup "use-current").isSome = false :=
      Bool.eq_false_iff.mpr fun h => by cases hv.current.mp h
    have hquery : (Command.queryOrder (v.lookup "order-id") false).job c =
        withSession fun _ => act c .queryOrderView (editsOf v [("order-id", .queryOrderId)]) := by
      rw [hedits]
      rfl
    exact ⟨_, by rw [← hswitch]; rfl, hjob hquery⟩
  | queryCurrent =>
    have hswitch : (v.lookup "use-current").isSome = true := hv.current.mpr rfl
    have hquery : (Command.queryOrder (v.lookup "order-id") true).job c = withSession fun _ =>
        .change [.drafts .useCurrentOrderId] (act c .queryOrderView (editsOf v [("order-id", .queryOrderId)])) := by
      rw [hedits]
      rfl
    exact ⟨_, by rw [← hswitch]; rfl, hjob hquery⟩
  | _ => exact ⟨_, rfl, hjob rfl⟩

end Ask

/-! ### What becomes of a command -/

/-- A command with options is run in a store that is opened on a backend. The drafts are edited first, and in the store
    that this gives the request is made. -/
structure Overridden (c : Config) (b : Backend) (q : Ask) (command : Command) (edited : Store) : Prop where
  taken : ∃ edits : List DraftEdit, edited = (Store.load b).editAll edits ∧
    ∀ reply ∈ (Store.load b).replies (edits.map .drafts), reply = .ok ()
  values : ∀ f, edited.state.drafts.value f =
    (q.given (Store.load b).state.drafts f).getD ((Store.load b).state.drafts.value f)
  stored : (∀ n, b.accepts n = true) → (Store.load edited.backend).state.drafts = edited.state.drafts
  sent : ∀ base, c.baseUrl? q.action.form.service = some base →
    q.action.form.Carries base edited.state.drafts ((q.action.request edited.state.drafts).wire base) ∧
    ∀ {σ : Type} (w : World σ) (x : σ),
      (command.job c).sent w (.load b) x = [(q.action.request edited.state.drafts).wire base]
  /-- The request has a place for every value that is given. -/
  carried : ∀ d f, q.given d f ≠ none → f ∈ q.action.form.fields
  /-- The drafts stay like this, unless an order is created and its id is kept. -/
  left : ∀ {σ : Type} (w : World σ) (x : σ),
    ((command.job c).run w (.load b) x).2.1.state.drafts = edited.state.drafts ∨
    q.action = .createOrder ∧ ((command.job c).run w (.load b) x).1 = .ok () ∧
      ∃ id, ((command.job c).run w (.load b) x).2.1.state.drafts = { edited.state.drafts with orderId := id }
  storedAfter : (∀ n, b.accepts n = true) → ∀ {σ : Type} (w : World σ) (x : σ),
    (Store.load ((command.job c).run w (.load b) x).2.1.backend).state.drafts =
      ((command.job c).run w (.load b) x).2.1.state.drafts

/-- A command with options edits the drafts as they say, and then it is its action. -/
theorem Ask.exists_edits {c : Config} {q : Ask} {v : Values} (hv : q.Spelled v) {s : Store} {session : Session}
    (hsession : s.state.session = some session) :
    ∃ command edits, commandOf? q.words v = some command ∧
      (∀ reply ∈ s.replies (edits.map .drafts), reply = .ok ()) ∧
      (∀ f, (s.editAll edits).state.drafts.value f = (q.given s.state.drafts f).getD (s.state.drafts.value f)) ∧
      ∀ {σ : Type} (w : World σ) (x : σ),
        ((command.job c).run w s x).1 = ending ((q.action.perform c).run w (s.editAll edits) x).1 ∧
        ((command.job c).run w s x).2.1 = ((q.action.perform c).run w (s.editAll edits) x).2.1 ∧
        (command.job c).sent w s x = (q.action.perform c).sent w (s.editAll edits) x := by
  obtain ⟨command, hcommand, hjob⟩ := q.exists_command (c := c) hv
  obtain ⟨e, hset, hvalue⟩ := setAll_editsOf q.nodup_fields hv.choices (s.editAll q.current).state.drafts
  have htaken := congrArg Prod.snd hset
  have hedits : s.editAll (q.current ++ overrides (editsOf v (fieldsOf q.choices))) =
      (s.editAll q.current).editAll (overrides (editsOf v (fieldsOf q.choices))) := by
    rw [Store.editAll, List.map_append, Store.updateAll_append]
    rfl
  refine ⟨command, q.current ++ overrides (editsOf v (fieldsOf q.choices)), hcommand, ?_, fun f => ?_, fun w x => ?_⟩
  · rw [List.map_append, Store.replies_append]
    exact List.forall_mem_append.mpr ⟨q.replies_current s, replies_overrides htaken⟩
  · rw [hedits, drafts_overrides, hset, hvalue, q.value_current]
  · rw [(hjob hsession w x).1, (hjob hsession w x).2, (run_act htaken w x).1, (run_act htaken w x).2, hedits]
    exact run_act_nil w _ x

/-- Every command with options does what they say, whatever the drafts, the options and the world are. -/
theorem options_override (c : Config) (b : Backend) {session : Session}
    (hsession : (Store.load b).state.session = some session) (q : Ask) {v : Values} (hv : q.Spelled v) :
    ∃ command edited, commandOf? q.words v = some command ∧ Overridden c b q command edited := by
  obtain ⟨command, edits, hcommand, htaken, hvalues, hrun⟩ := Ask.exists_edits (c := c) hv hsession
  have hkeeps (hb : ∀ n, b.accepts n = true) : ((Store.load b).editAll edits).KeepsDrafts :=
    (Store.keepsDrafts_load hb).updateAll _
  exact ⟨command, (Store.load b).editAll edits, hcommand, {
    taken := ⟨edits, rfl, htaken⟩
    values := hvalues
    stored := fun hb => (hkeeps hb).drafts
    sent := fun base hbase => by
      rw [q.action.wire_form]
      refine ⟨q.action.form.carries_wire q.action.nodup_keys_form base _, fun w x => ?_⟩
      rw [(hrun w x).2.2]
      exact DraftRequest.sent_action q.action hbase w _ x
    carried := fun _ _ => q.mem_fields_of_given
    left := fun w x => by
      rw [(hrun w x).1, (hrun w x).2.1]
      rcases Request.drafts_execute c (q.action.request _) w ((Store.load b).editAll edits) x with
        hsame | ⟨hhook, ⟨data, hok⟩, hcaptured⟩
      · exact Or.inl hsame
      · refine Or.inr ⟨?_, congrArg ending hok, hcaptured⟩
        generalize q.action = a at hhook ⊢
        cases a <;> trivial
    storedAfter := fun hb _ w x => by
      rw [(hrun w x).2.1]
      exact ((hkeeps hb).execute c _ w x).drafts }⟩

/-- A hold is asked for with an id and a negative quantity of its own, in a console that someone is logged in to. -/
theorem options_override_hold :
    (Store.load (.reliable Started.blobs)).state.session = some ⟨"ops", "tok"⟩ ∧
    (Ask.tryHold none (some "h-9") (some (-3)) none).Spelled [("qty", "-03"), ("hold-id", "h-9")] ∧
    ∃ edited, Overridden .initial (.reliable Started.blobs) (.tryHold none (some "h-9") (some (-3)) none)
      (.act .tryHold [(.holdId, "h-9"), (.qty, "-3")]) edited := by
  have hspelled : (Ask.tryHold none (some "h-9") (some (-3)) none).Spelled [("qty", "-03"), ("hold-id", "h-9")] := by
    refine ⟨?_, by simp [List.lookup_cons]⟩
    simp only [Ask.choices, List.forall_mem_cons]
    exact ⟨rfl, ⟨_, rfl, .text rfl "h-9"⟩, ⟨_, rfl, .number rfl (Text.int64?_eq_some_iff.mp (by decide))⟩, rfl, by simp⟩
  obtain ⟨command, edited, hcommand, h⟩ := options_override .initial _ Started.session_load _ hspelled
  have hplain : commandOf? ["inventory", "try-hold"] [("qty", "-03"), ("hold-id", "h-9")] =
      some (.act .tryHold [(.holdId, "h-9"), (.qty, "-3")]) := by decide +kernel
  obtain rfl : command = _ := Option.some.inj (hcommand.symm.trans hplain)
  exact ⟨Started.session_load, hspelled, edited, h⟩

end CommandLine

end TicketDesk
