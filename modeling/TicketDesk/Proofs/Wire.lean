import Mathlib.Data.List.Nodup
import TicketDesk.Poll
import TicketDesk.Proofs.Drafts
import TicketDesk.Proofs.Execution
import TicketDesk.Proofs.Json.RoundTrip
import TicketDesk.Proofs.Text.Percent

/-! # Draft values on the wire

A request that is made out of the drafts has a fixed form: the members of a JSON body, or one query
parameter, each with the draft value it holds. What goes out is read back as these values and nothing else,
whatever text they are, so it tells the drafts apart by exactly the fields of the form. -/

namespace TicketDesk

/-! ### Draft values -/

namespace Drafts

/-- The value of a field, a text or a whole number. -/
def value (d : Drafts) : Field → Json
  | .orderId => .text d.orderId
  | .idempotencyKey => .text d.idempotencyKey
  | .amountCents => .ofInt64 d.amountCents
  | .providerTxnId => .text d.providerTxnId
  | .paymentStatus => .text d.paymentStatus
  | .queryOrderId => .text d.queryOrderId
  | .partitionKey => .text d.partitionKey
  | .holdId => .text d.holdId
  | .qty => .ofInt64 d.qty
  | .capacity => .ofInt64 d.capacity

theorem portable_value (d : Drafts) (f : Field) (n : Nat) : (d.value f).Portable n := by
  cases f <;> exact ⟨rfl, rfl, Nat.zero_le n⟩

theorem showWord_injective {m n : Int64} (h : showWord m = showWord n) : m = n := by
  have hm := number_showWord .qty m
  rw [h, number_showWord] at hm
  exact (Except.ok.inj hm).symm

theorem ofInt64_injective {m n : Int64} (h : Json.ofInt64 m = Json.ofInt64 n) : m = n := by
  have hval : (Json.Whole.ofInt64 m).val = (Json.Whole.ofInt64 n).val := by
    rw [Json.whole.inj h]
  exact Int64.toInt_inj.mp hval

/-- A field shows the same text in two drafts when it has the same value in both. -/
theorem get_eq_iff {d e : Drafts} {f : Field} : d.get f = e.get f ↔ d.value f = e.value f := by
  have htext {s t : String} : s = t ↔ Json.text s = Json.text t := ⟨congrArg Json.text, Json.text.inj⟩
  have hword {m n : Int64} : showWord m = showWord n ↔ Json.ofInt64 m = Json.ofInt64 n :=
    ⟨fun h => congrArg Json.ofInt64 (showWord_injective h), fun h => congrArg showWord (ofInt64_injective h)⟩
  cases f with
  | amountCents => exact hword
  | qty => exact hword
  | capacity => exact hword
  | _ => exact htext

end Drafts

/-! ### Forms -/

/-- What a request holds of the drafts. -/
inductive Payload where
  /-- A JSON body with these members. -/
  | members (ms : List (String × Field))
  /-- A query parameter. -/
  | parameter (name : String) (field : Field)
  | nothing

/-- A request before the draft values are filled in. -/
structure Form where
  service : Service
  path : String
  payload : Payload

namespace Form

def fields (f : Form) : List Field :=
  match f.payload with
  | .members ms => ms.map (·.2)
  | .parameter _ field => [field]
  | .nothing => []

/-- The members of a body with the draft values filled in. -/
def filled (ms : List (String × Field)) (d : Drafts) : List (String × Json) := ms.map fun m => (m.1, d.value m.2)

def call (f : Form) (d : Drafts) : Call :=
  match f.payload with
  | .members ms => .post f.service f.path (.ofMembers (filled ms d))
  | .parameter name field => .get f.service (f.path ++ "?" ++ name ++ "=" ++ Text.encodeComponent (d.get field))
  | .nothing => .get f.service f.path

/-- The keys that the values stand under. -/
def keys (f : Form) : List String :=
  match f.payload with
  | .members ms => ms.map (·.1)
  | .parameter name _ => [name]
  | .nothing => []

/-- A request that went out to a base URL, as the backend reads it. A body is an object whose members are
    those of the form with the draft values in them. The value of a query parameter ends where the URL ends,
    and it stands for the bytes of the draft text. -/
def Carries (f : Form) (base : String) (d : Drafts) (w : Wire) : Prop :=
  match f.payload with
  | .members ms => w.method = .post ∧ w.url = base ++ f.path ∧
      ∃ text read, w.body = some text ∧ Json.read? text = some (.object read) ∧ read.Perm (filled ms d)
  | .parameter name field => w.method = .get ∧ w.body = none ∧
      ∃ value : String, w.url = base ++ f.path ++ "?" ++ name ++ "=" ++ value ∧
        (∀ c ∈ value.toList, c ∉ Text.separators) ∧
        Text.decodedBytes? value.toList = some (d.get field).toUTF8.data.toList
  | .nothing => w.method = .get ∧ w.body = none ∧ w.url = base ++ f.path

/-- What is made out of the drafts carries what the form says of them, and is told by the values of the
    fields in the form. -/
structure Faithful (f : Form) (base : String) (wire : Drafts → Wire) : Prop where
  carries : ∀ d, f.Carries base d (wire d)
  determined : ∀ d e, wire d = wire e ↔ ∀ field ∈ f.fields, d.value field = e.value field

/-! ### What a form puts on the wire -/

/-- The request of a form to the service at a base URL. -/
def wire (f : Form) (base : String) (d : Drafts) : Wire :=
  ⟨(f.call d).method, base ++ (f.call d).path, (f.call d).sentBody⟩

theorem carries_wire (f : Form) (h : f.keys.Nodup) (base : String) (d : Drafts) :
    f.Carries base d (f.wire base d) := by
  obtain ⟨service, path, payload⟩ := f
  cases payload with
  | members ms =>
    have hportable : (Json.ofMembers (filled ms d)).Portable Json.nesting :=
      Json.portable_ofMembers fun m hm => by
        obtain ⟨x, -, rfl⟩ := List.mem_map.mp hm
        exact d.portable_value x.2 _
    have hkeys : ((filled ms d).map (·.1)).Nodup := by
      rw [filled, List.map_map]
      exact h
    exact ⟨rfl, rfl, _, _, rfl, Json.read?_write hportable, Json.perm_sortMembers hkeys⟩
  | parameter name field =>
    refine ⟨rfl, rfl, Text.encodeComponent (d.get field), ?_, ?_, Text.decodedBytes?_encodeComponent _⟩
    · simp only [wire, call, Call.get, String.append_assoc]
    · exact fun c hc => Text.not_mem_separators_of_mem_encodeComponent hc
  | nothing => exact ⟨rfl, rfl, rfl⟩

/-- Equal values in the fields of a form give the same call. -/
theorem call_congr {f : Form} {d e : Drafts} (h : ∀ field ∈ f.fields, d.value field = e.value field) :
    f.call d = f.call e := by
  obtain ⟨service, path, payload⟩ := f
  cases payload with
  | members ms =>
    have hfilled : filled ms d = filled ms e :=
      List.map_congr_left fun m hm => congrArg (Prod.mk m.1) (h m.2 (List.mem_map_of_mem hm))
    simp only [call, hfilled]
  | parameter name field =>
    have hget : d.get field = e.get field := Drafts.get_eq_iff.mpr (h field List.mem_cons_self)
    simp only [call, hget]
  | nothing => rfl

/-- Members that are the same up to their order hold the same values, as no two have one key. -/
theorem value_eq_of_perm {ms : List (String × Field)} (hnodup : (ms.map (·.1)).Nodup) {d e : Drafts}
    (h : (filled ms d).Perm (filled ms e)) {m : String × Field} (hm : m ∈ ms) : d.value m.2 = e.value m.2 := by
  have hmem : (m.1, d.value m.2) ∈ filled ms e := h.mem_iff.mp (List.mem_map_of_mem hm)
  obtain ⟨x, hx, heq⟩ := List.mem_map.mp hmem
  obtain ⟨hkey, hvalue⟩ := Prod.mk.inj heq
  obtain rfl : x = m := List.inj_on_of_nodup_map hnodup hx hm hkey
  exact hvalue.symm

theorem faithful_wire (f : Form) (h : f.keys.Nodup) (base : String) : f.Faithful base (f.wire base) where
  carries := f.carries_wire h base
  determined d e := by
    constructor
    · intro heq
      have hd := f.carries_wire h base d
      have he := f.carries_wire h base e
      rw [heq] at hd
      obtain ⟨service, path, payload⟩ := f
      cases payload with
      | members ms =>
        obtain ⟨-, -, text, read, hbody, hread, hperm⟩ := hd
        obtain ⟨-, -, text', read', hbody', hread', hperm'⟩ := he
        obtain rfl : text = text' := Option.some.inj (hbody.symm.trans hbody')
        obtain rfl : read = read' := Json.object.inj (Option.some.inj (hread.symm.trans hread'))
        intro field hfield
        obtain ⟨m, hm, rfl⟩ := List.mem_map.mp hfield
        exact value_eq_of_perm h (hperm.symm.trans hperm') hm
      | parameter name field =>
        have hurl : base ++ (path ++ "?" ++ name ++ "=" ++ Text.encodeComponent (d.get field)) =
            base ++ (path ++ "?" ++ name ++ "=" ++ Text.encodeComponent (e.get field)) := congrArg Wire.url heq
        have hget := Text.encodeComponent_injective ((String.append_right_inj _).mp ((String.append_right_inj _).mp hurl))
        intro x hx
        obtain rfl := List.mem_singleton.mp hx
        exact Drafts.get_eq_iff.mp hget
      | nothing => exact fun x hx => by cases hx
    · intro hvalues
      simp only [wire, call_congr hvalues]

end Form

/-! ### Requests out of the drafts -/

def Action.form : Action → Form
  | .createOrder => ⟨.order, "/orders", .members [("idempotency_key", .idempotencyKey), ("amount_cents", .amountCents)]⟩
  | .reserveOrder => ⟨.order, "/orders/reserve", .members [("order_id", .orderId)]⟩
  | .paymentCallback => ⟨.order, "/payments/callback",
      .members [("order_id", .orderId), ("provider_txn_id", .providerTxnId), ("status", .paymentStatus)]⟩
  | .getOrder => ⟨.order, "/orders/get", .parameter "order_id" .orderId⟩
  | .queryOrderView => ⟨.query, "/query/orders", .parameter "order_id" .queryOrderId⟩
  | .tryHold => ⟨.inventory, "/inventory/try-hold",
      .members [("partition_key", .partitionKey), ("hold_id", .holdId), ("qty", .qty), ("capacity", .capacity)]⟩
  | .releaseHold => ⟨.inventory, "/inventory/release-hold",
      .members [("partition_key", .partitionKey), ("hold_id", .holdId)]⟩
  | .confirmHold => ⟨.inventory, "/inventory/confirm-hold",
      .members [("partition_key", .partitionKey), ("hold_id", .holdId)]⟩
  | .getAvailability => ⟨.inventory, "/inventory/availability", .parameter "partition_key" .partitionKey⟩
  | .healthz service => ⟨service, "/healthz", .nothing⟩

theorem Action.call_form (a : Action) (d : Drafts) : a.form.call d = a.call d := by
  cases a <;> simp [form, Form.call, call, Form.filled, Drafts.value, Drafts.get, Request.createOrder,
    Request.createOrderBody, Request.reserveOrder, Request.paymentCallback, Request.getOrder, Request.queryOrderView,
    Request.tryHold, Request.placedHold, Request.availability]

theorem Action.service_form (a : Action) (d : Drafts) : (a.call d).service = a.form.service := by
  cases a <;> rfl

theorem Action.wire_form (a : Action) (base : String) (d : Drafts) : (a.request d).wire base = a.form.wire base d := by
  rw [Form.wire, a.call_form]
  rfl

theorem Action.nodup_keys_form (a : Action) : a.form.keys.Nodup := by
  cases a with
  | healthz service => exact List.nodup_nil
  | _ => decide

/-- A single request that is made out of the drafts. -/
inductive DraftRequest where
  | action (a : Action)
  /-- The poll of the current order, which is made when there is one. -/
  | poll

namespace DraftRequest

def form : DraftRequest → Form
  | .action a => a.form
  | .poll => ⟨.query, "/query/orders", .parameter "order_id" .orderId⟩

def isMade (d : Drafts) : DraftRequest → Bool
  | .action _ => true
  | .poll => d.orderId ≠ ""

/-- What goes out when the request is made. -/
def sent {σ : Type} (c : Config) (w : World σ) (s : Store) (x : σ) : DraftRequest → List Wire
  | .action a => (a.perform c).sent w s x
  | .poll => (pollOnce c).sent w s x

section Sent

variable {σ : Type} {c : Config} {base : String}

theorem sent_action (a : Action) (h : c.baseUrl? a.form.service = some base) (w : World σ) (s : Store) (x : σ) :
    (a.perform c).sent w s x = [a.form.wire base s.state.drafts] := by
  have hservice : c.baseUrl? (a.request s.state.drafts).call.service = some base := (a.service_form _).symm ▸ h
  rw [Action.perform, Work.sent, Request.sent_execute hservice, a.wire_form]

theorem sent_poll (h : c.baseUrl? .query = some base) (w : World σ) (s : Store) (x : σ) :
    (pollOnce c).sent w s x = if s.state.drafts.orderId ≠ "" then [poll.form.wire base s.state.drafts] else [] := by
  rw [pollOnce, Work.sent, Request.poll?]
  split
  · next r hr =>
    split at hr
    · cases hr
    · next hne =>
      obtain rfl := Option.some.inj hr
      rw [if_pos hne, Work.sent_onSuccess (fun _ _ _ => rfl), Request.sent_execute h]
      simp [Form.wire, Form.call, form, Request.wire, Request.queryOrderView, Drafts.get]
  · next hr =>
    split at hr
    · next hempty => simp [hempty, Work.sent]
    · cases hr

end Sent

/-- Where its service has a base URL, a request out of the drafts goes out once and carries what its form says
    of them. -/
theorem faithful_sent (c : Config) (r : DraftRequest) {base : String} (h : c.baseUrl? r.form.service = some base) :
    ∃ wire : Drafts → Wire, r.form.Faithful base wire ∧
      ∀ {σ : Type} (w : World σ) (s : Store) (x : σ),
        r.sent c w s x = if r.isMade s.state.drafts then [wire s.state.drafts] else [] := by
  cases r with
  | action a =>
    refine ⟨a.form.wire base, a.form.faithful_wire a.nodup_keys_form base, fun w s x => ?_⟩
    exact sent_action a h w s x
  | poll =>
    refine ⟨poll.form.wire base, poll.form.faithful_wire (by decide) base, fun w s x => ?_⟩
    rw [sent, sent_poll h, isMade]
    simp

/-- The payment callback goes out to the order service of the local stack. -/
theorem faithful_sent_payment :
    Config.initial.baseUrl? .order = some "http://127.0.0.1:8081" ∧
      ∃ wire : Drafts → Wire, Action.paymentCallback.form.Faithful "http://127.0.0.1:8081" wire ∧
        ∀ {σ : Type} (w : World σ) (s : Store) (x : σ),
          (DraftRequest.action .paymentCallback).sent .initial w s x = [wire s.state.drafts] := by
  have hbase : Config.initial.baseUrl? .order = some "http://127.0.0.1:8081" := by decide
  exact ⟨hbase, faithful_sent .initial (.action .paymentCallback) hbase⟩

end DraftRequest

end TicketDesk
