import Mathlib.Data.List.Basic
import Mathlib.Logic.Function.Basic

/-! # Mailboxes

A sender has a value for every receiver, and sends messages that a receiver handles in order,
sooner or later. What a message does to a view of its receiver is a function
(`Mailbox.Acts`), whatever else the receiver holds then. If the messages of every step of the
sender turn the values before the step into those after it (`Mailbox.Updates`), handling what
is on its way turns the view of a receiver into the value that the sender has for it
(`Mailbox.Pending`), and where nothing is on its way the two are the same.
-/

namespace Mailbox

variable {κ σ μ α : Type*}

section Views

variable (handles : σ → μ → σ → Prop) (view : σ → α)

/-- However the message is handled, it changes the view so. -/
def Acts (message : μ) (change : α → α) : Prop :=
  ∀ before after, handles before message after → view after = change (view before)

/-- What messages that are handled in order do to the view. -/
inductive ActsAll : List μ → (α → α) → Prop
  | nil : ActsAll [] id
  | cons {message : μ} {messages : List μ} {first rest : α → α} :
      Acts handles view message first → ActsAll messages rest →
      ActsAll (message :: messages) (rest ∘ first)

/-- Handling messages one after the other. -/
inductive HandlesAll (handles : σ → μ → σ → Prop) : σ → List μ → σ → Prop
  | nil {receiver : σ} : HandlesAll handles receiver [] receiver
  | cons {before middle after : σ} {message : μ} {messages : List μ} :
      handles before message middle → HandlesAll handles middle messages after →
        HandlesAll handles before (message :: messages) after

/-- Handling what is on its way gives the value. -/
def Pending (inbox : List μ) (receiver : σ) (value : α) : Prop :=
  ∃ change, ActsAll handles view inbox change ∧ change (view receiver) = value

end Views

/-- The messages for a receiver. -/
def addressedTo [DecidableEq κ] (place : μ → κ) (receiver : κ) (sent : List μ) : List μ :=
  sent.filter fun message => place message = receiver

/-- What is sent turns the value for every receiver into another one. -/
def Updates [DecidableEq κ] (handles : σ → μ → σ → Prop) (view : σ → α) (place : μ → κ)
    (sent : List μ) (before after : κ → α) : Prop :=
  ∀ receiver, ∃ change, ActsAll handles view (addressedTo place receiver sent) change ∧
    change (before receiver) = after receiver

variable {handles : σ → μ → σ → Prop} {view : σ → α} {message : μ} {messages : List μ}
  {first rest : α → α}

theorem ActsAll.append {later : List μ} (one : ActsAll handles view messages first)
    (two : ActsAll handles view later rest) :
    ActsAll handles view (messages ++ later) (rest ∘ first) := by
  induction one with
  | nil => exact two
  | cons acts _ ih =>
      have both := ActsAll.cons acts ih
      exact both

theorem ActsAll.handlesAll {before after : σ} (acts : ActsAll handles view messages first)
    (handled : HandlesAll handles before messages after) : view after = first (view before) := by
  induction acts generalizing before with
  | nil =>
      cases handled
      rfl
  | cons one _ ih =>
      cases handled with
      | cons step rest => exact (ih rest).trans (congrArg _ (one _ _ step))

/-! ## Sending -/

section Sending

variable [DecidableEq κ] {place : μ → κ} {sent : List μ} {before middle after : κ → α}

theorem Updates.nil : Updates handles view place [] before before :=
  fun _ => ⟨id, .nil, rfl⟩

/-- The first message changes the value for its receiver. -/
theorem Updates.cons (acts : Acts handles view message first)
    (changed : ∀ receiver, middle receiver =
      if receiver = place message then first (before receiver) else before receiver)
    (more : Updates handles view place sent middle after) :
    Updates handles view place (message :: sent) before after := by
  intro receiver
  obtain ⟨change, actsAll, value⟩ := more receiver
  have now := changed receiver
  by_cases here : receiver = place message
  · rw [if_pos here] at now
    refine ⟨change ∘ first, ?_, (congrArg change now).symm.trans value⟩
    rw [addressedTo, List.filter_cons_of_pos (by simpa using here.symm)]
    exact .cons acts actsAll
  · rw [if_neg here] at now
    refine ⟨change, ?_, (congrArg change now).symm.trans value⟩
    rwa [addressedTo, List.filter_cons_of_neg (by simpa using Ne.symm here)]

/-- Messages that leave the view leave the values. -/
theorem Updates.of_forall (same : ∀ message ∈ sent, Acts handles view message id) :
    Updates handles view place sent before before := by
  induction sent with
  | nil => exact .nil
  | cons message sent ih =>
      refine .cons (same message List.mem_cons_self) (fun receiver => ?_)
        (ih fun other member => same other (List.mem_cons_of_mem _ member))
      split <;> rfl

end Sending

/-! ## On its way -/

namespace Pending

theorem nil_iff {receiver : σ} {value : α} :
    Pending handles view [] receiver value ↔ view receiver = value := by
  constructor
  · rintro ⟨change, actsAll, same⟩
    cases actsAll
    exact same
  · exact fun same => ⟨id, .nil, same⟩

/-- Once what is on its way has been handled, the receiver has the value. -/
theorem handlesAll {receiver after : σ} {value : α}
    (pending : Pending handles view messages receiver value)
    (handled : HandlesAll handles receiver messages after) : view after = value := by
  obtain ⟨change, actsAll, same⟩ := pending
  exact (actsAll.handlesAll handled).trans same

variable [DecidableEq κ] {place : μ → κ} {sent : List μ} {inbox : κ → List μ}
  {receivers : κ → σ} {before after : κ → α}

/-- Sending keeps the values pending. -/
theorem send (pending : ∀ receiver, Pending handles view (inbox receiver) (receivers receiver)
      (before receiver)) (updates : Updates handles view place sent before after) (receiver : κ) :
    Pending handles view (inbox receiver ++ addressedTo place receiver sent)
      (receivers receiver) (after receiver) := by
  obtain ⟨change, actsAll, value⟩ := pending receiver
  obtain ⟨more, actsMore, updated⟩ := updates receiver
  exact ⟨more ∘ change, actsAll.append actsMore, (congrArg more value).trans updated⟩

/-- Handling the first message on its way keeps them pending. -/
theorem handle (pending : ∀ receiver, Pending handles view (inbox receiver) (receivers receiver)
      (before receiver)) {active : κ} {left : List μ} {handled : σ}
    (waiting : inbox active = message :: left)
    (step : handles (receivers active) message handled) (receiver : κ) :
    Pending handles view (Function.update inbox active left receiver)
      (Function.update receivers active handled receiver) (before receiver) := by
  obtain ⟨change, actsAll, value⟩ := pending receiver
  by_cases here : receiver = active
  · subst here
    rw [waiting] at actsAll
    cases actsAll with
    | cons acts others =>
        rw [Function.update_self, Function.update_self]
        refine ⟨_, others, ?_⟩
        rw [acts _ _ step]
        exact value
  · rw [Function.update_of_ne here, Function.update_of_ne here]
    exact ⟨change, actsAll, value⟩

end Pending

end Mailbox
