import BufferFlow.Proofs.Hub.Mail
import BufferFlow.Proofs.Stage.Loops

set_option autoImplicit false

namespace BufferFlow

namespace Hub

variable {h : Hub} {mailbox : Nat}

theorem contains_mailboxes_apply (there : h.mailboxes.contains mailbox) (op : Operation) :
    (h.apply op).mailboxes.contains mailbox := by
  by_cases new : op = .newMailbox
  · subst new
    rw [apply, newMailbox, Table.contains, Table.get?_insert]
    split
    · rfl
    · exact there
  · rw [mailboxes_apply new, contains_post]
    exact there

theorem contains_mailboxes_applyAll (there : h.mailboxes.contains mailbox) (ops : List Operation) :
    (h.applyAll ops).mailboxes.contains mailbox := by
  induction ops generalizing h with
  | nil => exact there
  | cons op ops ih => exact ih (contains_mailboxes_apply there op)

end Hub

namespace Loop

variable {h h' : Hub} {l l' : Loop}

def Mailed : Loop → Hub → Prop
  | relay _, _ => True
  | aggregator l, h => h.mailboxes.contains l.mailbox

theorem Mailed.congr (mailed : l.Mailed h) (same : h'.mailboxes = h.mailboxes) : l.Mailed h' := by
  cases l with
  | relay l => trivial
  | aggregator l =>
    rw [Mailed, same]
    exact mailed

theorem Mailed.applyAll (mailed : l.Mailed h) (ops : List Operation) : l.Mailed (h.applyAll ops) := by
  cases l with
  | relay l => trivial
  | aggregator l => exact Hub.contains_mailboxes_applyAll mailed ops

theorem Mailed.reset (mailed : l.Mailed h) (same : l'.reset = l.reset) : l'.Mailed h := by
  cases l with
  | relay l =>
    cases l' with
    | relay l' => trivial
    | aggregator l' => exact nomatch same
  | aggregator l =>
    cases l' with
    | relay l' => exact nomatch same
    | aggregator l' =>
      have made := congrArg AggregatorLoop.mailbox (Loop.aggregator.inj same)
      change h.mailboxes.contains l'.mailbox
      exact made ▸ mailed

theorem Mailed.hub (mailed : l.Mailed h) (step : (l.advance h).hub? = some h') :
    h' = h.applyAll (l.requests h) := by
  cases l with
  | relay l =>
    rw [advance_relay, Progress.hub?_map] at step
    exact RelayLoop.advance_hub? step
  | aggregator l =>
    rw [advance_aggregator, Progress.hub?_map] at step
    exact AggregatorLoop.advance_hub? mailed step

end Loop

end BufferFlow
