import RemoteMemory.Message

/-!
# Dialogues

A dialogue is an activity that sends requests and goes on according to the answers. It says nothing
about who answers, so the same dialogue runs against recorded replies, a live server or any other
peer. It is finite: every chain of answers leads to a result.
-/

namespace RemoteMemory

inductive Dialogue (α : Type) where
  | done (result : α)
  | ask (request : Message) (resume : Except Error Message → Dialogue α)

namespace Dialogue

variable {α σ : Type}

def run (exchange : Message → σ → Except Error Message × σ) : Dialogue α → σ → α × σ
  | done result, state => (result, state)
  | ask request resume, state =>
    let (reply, state) := exchange request state
    (resume reply).run exchange state

/-- Run against a peer that may also leave a request without any answer. The activity then has no
result, but the peer's state goes on from there. -/
def run? (exchange : Message → σ → Option (Except Error Message) × σ) :
    Dialogue α → σ → Option α × σ
  | done result, state => (some result, state)
  | ask request resume, state =>
    match exchange request state with
    | (some reply, state) => (resume reply).run? exchange state
    | (none, state) => (none, state)

end Dialogue

end RemoteMemory
