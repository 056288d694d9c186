/-!
# Turns

A lock that is handed over first come, first served.

* `Turn` — who has the lock, and who waits for it.
* `Turn.ask`, `Turn.release`, `Turn.leave`.
-/

namespace SealedTunnel

/-- Who has a lock, and who waits for it. -/
structure Turn where
  /-- who has it -/
  holder : Option Nat
  /-- who waits, longest first -/
  waiting : List Nat
  deriving DecidableEq, Repr

namespace Turn

/-- A lock that nobody has. -/
def free : Turn := ⟨none, []⟩

/-- Take the lock if nobody has it, and wait for it otherwise. -/
def ask (t : Turn) (who : Nat) : Turn :=
  match t.holder with
  | none => { t with holder := some who }
  | some _ => { t with waiting := t.waiting ++ [who] }

/-- Hand the lock over to who waits longest. -/
def release (t : Turn) : Turn :=
  match t.waiting with
  | [] => free
  | next :: rest => ⟨some next, rest⟩

/-- Neither have the lock nor wait for it any more. -/
def leave (t : Turn) (who : Nat) : Turn :=
  if t.holder = some who then t.release else { t with waiting := t.waiting.filter (· ≠ who) }

end Turn

end SealedTunnel
