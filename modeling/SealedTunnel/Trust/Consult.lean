import SealedTunnel.Bytes

/-!
# Consulting an authority

Certificates, signatures and files are judged elsewhere. A computation that
needs such a judgement asks and goes on with the answer, so that whoever runs
it decides what the answers are and sees what was asked, in order.

* `Question`, `Question.Answer` — what can be asked, and the type of the answers.
* `Consult` — a computation that may ask.
* `Consult.run` — answer the questions from a state; `Consult.trace` — what is asked on the way.
-/

namespace SealedTunnel

/-! ## Questions -/

/-- A certificate is its encoding. -/
structure Certificate where
  /-- the encoding -/
  der : Bytes
  deriving DecidableEq, Repr

/-- A public key for signatures, in a form that only the authority can read. -/
structure VerifyingKey where
  /-- what the authority knows it by -/
  handle : Bytes
  deriving DecidableEq, Repr

/-- The hash in a signature. -/
inductive Digest where
  /-- SHA-256 -/
  | sha256
  /-- SHA-384 -/
  | sha384
  deriving DecidableEq, Repr

/-- What came out of the search for a path to a trust anchor. -/
inductive PathVerdict where
  /-- there is a valid path -/
  | valid
  /-- there is none -/
  | invalid (reason : String)
  deriving DecidableEq, Repr

/-- What can be asked. -/
inductive Question where
  /-- is this a certificate? -/
  | certificate (der : Bytes)
  /-- which key does a certificate hold? -/
  | publicKey (certificate : Certificate)
  /-- does a path lead from a certificate over `chain` to one of the anchors? -/
  | path (certificate : Certificate) (chain anchors : List Certificate)
  /-- what is the encoding of the signature `(r, s)`? -/
  | encodeSignature (r s : Nat)
  /-- does a signature hold? -/
  | verify (digest : Digest) (key : VerifyingKey) (data signature : Bytes)
  /-- what is the encoding of the signature of `data`? -/
  | sign (digest : Digest) (data : Bytes)
  /-- which signature `(r, s)` is in an encoding? -/
  | decodeSignature (encoded : Bytes)
  /-- which certificates are in a text? -/
  | certificates (pem : Bytes)
  /-- what is in a file? -/
  | file (path : String)
  deriving DecidableEq, Repr

/-- The answers to a question: an error with its text, or what was asked for. Where a signature is
checked or made, preparing for it may go wrong, and then the check or the signature itself. -/
def Question.Answer (q : Question) : Type :=
  Except String <| match q with
    | certificate _ => Certificate
    | publicKey _ => VerifyingKey
    | path .. => PathVerdict
    | encodeSignature .. => Bytes
    | verify .. => Except String Bool
    | sign .. => Except String Bytes
    | decodeSignature _ => Nat × Nat
    | certificates _ => List Certificate
    | file _ => Bytes

/-! ## Computations -/

/-- A computation that may ask. -/
inductive Consult (α : Type) : Type where
  /-- it is over -/
  | done (a : α)
  /-- it goes on with the answer to a question -/
  | asking (q : Question) (next : q.Answer → Consult α)

namespace Consult

variable {α β : Type}

/-- One computation after the other. -/
def bind : Consult α → (α → Consult β) → Consult β
  | done a, f => f a
  | asking q next, f => asking q fun answer => (next answer).bind f

instance : Monad Consult where
  pure := done
  bind := bind

/-- Ask one question. -/
def ask (q : Question) : Consult q.Answer := asking q done

/-- Answer the questions from a state. -/
def run {σ : Type} (answer : (q : Question) → σ → q.Answer × σ) : Consult α → σ → α × σ
  | done a, s => (a, s)
  | asking q next, s => (next (answer q s).1).run answer (answer q s).2

/-- What is asked, in order, if the answers come from a state. -/
def trace {σ : Type} (answer : (q : Question) → σ → q.Answer × σ) : Consult α → σ → List Question
  | done _, _ => []
  | asking q next, s => q :: (next (answer q s).1).trace answer (answer q s).2

@[simp] theorem pure_def (a : α) : (pure a : Consult α) = done a := rfl

@[simp] theorem bind_def (c : Consult α) (f : α → Consult β) : (c >>= f) = c.bind f := rfl

theorem bind_done (c : Consult α) : c.bind done = c := by
  induction c with
  | done => rfl
  | asking q next ih => simp [bind, ih]

theorem bind_assoc {γ : Type} (c : Consult α) (f : α → Consult β) (g : β → Consult γ) :
    (c.bind f).bind g = c.bind fun a => (f a).bind g := by
  induction c with
  | done => rfl
  | asking q next ih => simp [bind, ih]

instance : LawfulMonad Consult := LawfulMonad.mk' Consult
  (fun c => bind_done c) (fun _ _ => rfl) (fun c f g => bind_assoc c f g)

end Consult

end SealedTunnel
