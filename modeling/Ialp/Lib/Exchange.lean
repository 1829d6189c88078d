import Mathlib.Order.Monotone.Defs

/-!
Programs that ask a world they do not control. The world grows between two requests, a reply is one
the world gives at the time it is asked, and a program may fail. What holds of the world when a
program is done is shown request by request.
-/

namespace Exchange

variable {Request : Type} {Reply : Request → Type} {ε α β : Type}

inductive Program (Reply : Request → Type) (ε α : Type) where
  | done (value : α)
  | fail (error : ε)
  | ask (request : Request) (resume : Reply request → Program Reply ε α)

namespace Program

protected def bind (next : α → Program Reply ε β) : Program Reply ε α → Program Reply ε β
  | done value => next value
  | fail error => fail error
  | ask request resume => ask request fun reply => (resume reply).bind next

instance : Monad (Program Reply ε) where
  pure := done
  bind program next := program.bind next

def poll (request : Request) (wanted : Reply request → Except ε Bool) (timeout : ε) :
    ℕ → Program Reply ε Unit
  | 0 => fail timeout
  | attempts + 1 => ask request fun reply =>
      match wanted reply with
      | .ok true => done ()
      | .ok false => poll request wanted timeout attempts
      | .error error => fail error

section Ensures

variable {World : Type} [Preorder World]
  (answers : World → (request : Request) → Reply request → Prop)

/-- However the world grows, and whatever it answers: when the program is done, the condition
holds. -/
def Ensures (post : World → α → Prop) : World → Program Reply ε α → Prop
  | world, done value => post world value
  | _, fail _ => True
  | world, ask request resume => ∀ world', world ≤ world' → ∀ reply, answers world' request reply →
      Ensures post world' (resume reply)

variable {answers} {post : World → α → Prop} {world world' : World} {program : Program Reply ε α}

theorem Ensures.mono (monotone : ∀ value, Monotone fun world => post world value)
    (grown : world ≤ world') (ensures : Ensures answers post world program) :
    Ensures answers post world' program := by
  cases program with
  | done value => exact monotone value grown ensures
  | fail error => trivial
  | ask request resume =>
      intro later growth reply answered
      exact ensures later (grown.trans growth) reply answered

theorem Ensures.bind {next : α → Program Reply ε β} {middle : World → α → Prop}
    {post : World → β → Prop} (first : Ensures answers middle world program)
    (second : ∀ world' value, world ≤ world' → middle world' value →
      Ensures answers post world' (next value)) :
    Ensures answers post world (program >>= next) := by
  induction program generalizing world with
  | done value => exact second world value le_rfl first
  | fail error => trivial
  | ask request resume ih =>
      intro world' grown reply answered
      exact ih reply (first world' grown reply answered) fun later value growth held =>
        second later value (grown.trans growth) held

theorem ensures_true (program : Program Reply ε α) (world : World) :
    Ensures answers (fun _ _ => True) world program := by
  induction program generalizing world with
  | done value => trivial
  | fail error => trivial
  | ask request resume ih =>
      intro world' _ reply _
      exact ih reply world'

theorem ensures_poll {request : Request} {wanted : Reply request → Except ε Bool} {timeout : ε}
    {post : World → Unit → Prop}
    (seen : ∀ world reply, answers world request reply → wanted reply = .ok true → post world ())
    (attempts : ℕ) (world : World) :
    Ensures answers post world (poll request wanted timeout attempts) := by
  induction attempts generalizing world with
  | zero => trivial
  | succ attempts ih =>
      intro world' _ reply answered
      dsimp only
      split
      · rename_i verdict
        exact seen world' reply answered verdict
      · exact ih world'
      · trivial

end Ensures

section Confined

variable {allowed : Request → Prop} {program : Program Reply ε α}

/-- Whatever the program is answered, it makes no request that is not allowed. -/
def Confined (allowed : Request → Prop) : Program Reply ε α → Prop
  | done _ => True
  | fail _ => True
  | ask request resume => allowed request ∧ ∀ reply, Confined allowed (resume reply)

theorem Confined.bind {next : α → Program Reply ε β} (first : program.Confined allowed)
    (second : ∀ value, (next value).Confined allowed) : (program >>= next).Confined allowed := by
  induction program with
  | done value => exact second value
  | fail error => trivial
  | ask request resume ih => exact ⟨first.1, fun reply => ih reply (first.2 reply)⟩

theorem confined_poll {request : Request} {wanted : Reply request → Except ε Bool} {timeout : ε}
    (permitted : allowed request) (attempts : ℕ) :
    (poll request wanted timeout attempts).Confined allowed := by
  induction attempts with
  | zero => trivial
  | succ attempts ih =>
      refine ⟨permitted, fun reply => ?_⟩
      dsimp only
      split
      · trivial
      · exact ih
      · trivial

end Confined

end Program

end Exchange
