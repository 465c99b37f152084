import Mathlib.Logic.Basic

/-!
# Programs that perform statements

A service is written as straight-line code over statements that the outside answers:
a database statement, a transaction, a call to a node. `Prog E ε α` is such a program:
it returns a value of type `α`, throws a fault of type `ε`, or performs one statement
of `E` and goes on with its answer. One statement is atomic; between two statements of
a program any other program may run, which `SettlementOS.Computation.Service` makes
precise.

Nothing here knows what the statements do.
-/

set_option autoImplicit false

namespace SettlementOS.Computation

/-- The statements programs may perform, each with the type of its answer. -/
structure Effects where
  /-- the statements -/
  Stmt : Type
  /-- what the outside may answer to a statement -/
  Answer : Stmt → Type

/-- A program over the statements of `E`. -/
inductive Prog (E : Effects) (ε α : Type) : Type where
  /-- the program is done -/
  | ret (a : α)
  /-- the program throws -/
  | throw (e : ε)
  /-- the program performs `o` and waits for its answer -/
  | perform (o : E.Stmt) (k : E.Answer o → Prog E ε α)

namespace Prog

variable {E : Effects} {ε ε' α β γ : Type}

/-- Sequencing: a throw skips the rest. -/
def bind : Prog E ε α → (α → Prog E ε β) → Prog E ε β
  | .ret a, f => f a
  | .throw e, _ => .throw e
  | .perform o k, f => .perform o fun r => (k r).bind f

/-- `try p catch h`; the handler may throw faults of another type. -/
def handle : Prog E ε α → (ε → Prog E ε' α) → Prog E ε' α
  | .ret a, _ => .ret a
  | .throw e, h => h e
  | .perform o k, h => .perform o fun r => (k r).handle h

instance : Monad (Prog E ε) where
  pure := .ret
  bind := bind

instance : MonadExcept ε (Prog E ε) where
  throw := .throw
  tryCatch := handle

/-- `pure` is a program that returns. -/
@[simp] theorem pure_eq (a : α) : (pure a : Prog E ε α) = .ret a := rfl

/-- `>>=` is `bind`. -/
@[simp] theorem bind_eq (p : Prog E ε α) (f : α → Prog E ε β) : (p >>= f) = p.bind f := rfl

/-- `throw` is a program that throws. -/
@[simp] theorem throw_eq (e : ε) : (MonadExcept.throw e : Prog E ε α) = .throw e := rfl

/-- A value is handed on. -/
@[simp] theorem ret_bind (a : α) (f : α → Prog E ε β) : (Prog.ret a).bind f = f a := rfl

/-- An error is not handed on to what follows. -/
@[simp] theorem throw_bind (e : ε) (f : α → Prog E ε β) :
    (Prog.throw e : Prog E ε α).bind f = .throw e := rfl

/-- A value that is already known, or the fault it failed with. -/
def ofExcept : Except ε α → Prog E ε α
  | .ok a => .ret a
  | .error e => .throw e

/-- An outcome that is a value is returned. -/
@[simp] theorem ofExcept_ok (a : α) : (ofExcept (.ok a) : Prog E ε α) = .ret a := rfl

/-- An outcome that is an error is thrown. -/
@[simp] theorem ofExcept_error (e : ε) : (ofExcept (.error e) : Prog E ε α) = .throw e := rfl

/-- Run `p` and report how it ended instead of throwing. -/
def attempt (p : Prog E ε α) : Prog E ε' (Except ε α) :=
  (p.bind fun a => .ret (.ok a)).handle fun e => .ret (.error e)

/-- `try p finally f`: `f` runs however `p` ends, and then `p`'s own end stands. -/
def andFinally (p : Prog E ε α) (f : Prog E ε Unit) : Prog E ε α :=
  p.attempt.bind fun r => f.bind fun _ => ofExcept r

/-- `p.catch(() => {})`: whatever `p` throws is dropped. -/
def ignoring (p : Prog E ε α) : Prog E ε' Unit :=
  (p.bind fun _ => .ret ()).handle fun _ => .ret ()

/-- Run `p`, handing whatever it throws on together with `x`. -/
def keeping {χ : Type} (x : χ) (p : Prog E ε α) : Prog E (ε × χ) α :=
  p.handle fun e => .throw (e, x)

/-- A program that cannot throw, among programs that can. -/
def silent (p : Prog E Empty α) : Prog E ε α := p.handle fun e => e.elim

/-- The program over finer statements, where `f` carries out each of the coarser ones. -/
def interpret {E' : Effects} (f : ∀ o : E.Stmt, Prog E' Empty (E.Answer o)) :
    Prog E ε α → Prog E' ε α
  | .ret a => .ret a
  | .throw e => .throw e
  | .perform o k => (f o).silent.bind fun r => (k r).interpret f

/-- Run `p` by itself: its statements are answered one after the other by `exec`. -/
def alone {σ : Type} (exec : (o : E.Stmt) → σ → E.Answer o × σ) :
    Prog E ε α → σ → Except ε α × σ
  | .ret a, s => (.ok a, s)
  | .throw e, s => (.error e, s)
  | .perform o k, s => (k (exec o s).1).alone exec (exec o s).2

section

variable {σ : Type} {exec : (o : E.Stmt) → σ → E.Answer o × σ} {s s' : σ} {p : Prog E ε α} {a : α}

/-- A program that ends with a value goes on with it, from where it is. -/
theorem alone_bind (h : p.alone exec s = (.ok a, s')) (f : α → Prog E ε β) :
    (p.bind f).alone exec s = (f a).alone exec s' := by
  induction p generalizing s with
  | ret b =>
    cases h
    rfl
  | throw e => cases h
  | perform o k ih => exact ih _ h

/-- A program that ends with a value needs no handler. -/
theorem alone_handle (h : p.alone exec s = (.ok a, s')) (g : ε → Prog E ε' α) :
    (p.handle g).alone exec s = (.ok a, s') := by
  induction p generalizing s with
  | ret b =>
    cases h
    rfl
  | throw e => cases h
  | perform o k ih => exact ih _ h

end

/-- Every statement `p` may perform, whatever it is answered, satisfies `S`. -/
def Uses (S : E.Stmt → Prop) : Prog E ε α → Prop
  | .ret _ => True
  | .throw _ => True
  | .perform o k => S o ∧ ∀ r, (k r).Uses S

/-- A sequence performs what its two parts perform. -/
theorem Uses.bind {S : E.Stmt → Prop} {p : Prog E ε α} {f : α → Prog E ε β}
    (hp : p.Uses S) (hf : ∀ a, (f a).Uses S) : (p.bind f).Uses S := by
  induction p with
  | ret a => exact hf a
  | throw e => trivial
  | perform o k ih => exact ⟨hp.1, fun r => ih r (hp.2 r)⟩

/-- A guarded program performs what it and its handler perform. -/
theorem Uses.handle {S : E.Stmt → Prop} {p : Prog E ε α} {h : ε → Prog E ε' α}
    (hp : p.Uses S) (hh : ∀ e, (h e).Uses S) : (p.handle h).Uses S := by
  induction p with
  | ret a => trivial
  | throw e => exact hh e
  | perform o k ih => exact ⟨hp.1, fun r => ih r (hp.2 r)⟩

/-- What is among fewer statements is among more. -/
theorem Uses.mono {S S' : E.Stmt → Prop} {p : Prog E ε α} (h : p.Uses S)
    (hS : ∀ o, S o → S' o) : p.Uses S' := by
  induction p with
  | ret a => trivial
  | throw e => trivial
  | perform o k ih => exact ⟨hS o h.1, fun r => ih r (h.2 r)⟩

/-- A known value performs nothing. -/
theorem uses_ofExcept {S : E.Stmt → Prop} (x : Except ε α) : (ofExcept x : Prog E ε α).Uses S := by
  cases x <;> trivial

/-- Pardoning an error performs nothing more. -/
theorem Uses.ignoring {S : E.Stmt → Prop} {p : Prog E ε α} (hp : p.Uses S) :
    (p.ignoring : Prog E ε' Unit).Uses S :=
  Uses.handle (Uses.bind hp fun _ => trivial) fun _ => trivial

/-- Handing a value on with an error performs nothing more. -/
theorem Uses.keeping {χ : Type} {S : E.Stmt → Prop} {p : Prog E ε α} {x : χ} (hp : p.Uses S) :
    (p.keeping x).Uses S :=
  Uses.handle hp fun _ => trivial

end Prog

end SettlementOS.Computation
