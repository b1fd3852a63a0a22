import SmsGate.Prog.Basic

/-!
# Calls that are programs

A component that is a single call to the one that uses it can be a program of its own, with calls of
its own.  `interpret f p` is the program `p` in which every call `e` is done by the program `f e`.

* `Obeys.interpret`: it keeps to a protocol, if `p` keeps to one and each `f e` does what that one
  says of the call `e`;
* `interpret_obeys`: it keeps to a protocol, if each `f e` does from wherever it starts.
-/

namespace Prog

variable {E E' : Type} {A : E → Type} {A' : E' → Type} {Q α : Type}

/-- The program in which every call is done by a program. -/
def interpret (f : (e : E) → Prog E' A' (A e)) : Prog E A α → Prog E' A' α
  | ret a => ret a
  | call e k => f e >>= fun a => interpret f (k a)

theorem Obeys.interpret {P : Protocol E A Q} {P' : Protocol E' A' Q}
    {f : (e : E) → Prog E' A' (A e)} {p : Prog E A α} {q : Q} {Φ : α → Q → Prop}
    (h : p.Obeys P q Φ)
    (hf : ∀ q e, P.allows q e → (f e).Obeys P' q fun a q' => q' = P.next q e a) :
    (p.interpret f).Obeys P' q Φ := by
  induction p generalizing q with
  | ret a => exact h
  | call e k ih =>
    refine (hf q e h.1).bind ?_
    rintro a _ rfl
    exact ih a (h.2 a)

theorem interpret_obeys {P : Protocol E' A' Q} {f : (e : E) → Prog E' A' (A e)}
    (hf : ∀ q e, (f e).Obeys P q fun _ _ => True) (p : Prog E A α) (q : Q) :
    (p.interpret f).Obeys P q fun _ _ => True := by
  induction p generalizing q with
  | ret a => trivial
  | call e k ih => exact (hf q e).bind fun a q' _ => ih a q'

end Prog
