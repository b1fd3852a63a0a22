import SmsGate.Prog.Basic

/-!
# Programs that run alone

A program that runs alone on a state makes its calls one after the other.  `exec s e a` is the state
after call `e` was answered by `a`, and `none` if it cannot be answered so in state `s`.

* `Ends`: the program can always go on to its end, and whatever the answers were, a postcondition
  holds there;
* `Ends.bind`, `Ends.mono`: the rules by which it is proved along the program text;
* `logged`: the same run with a log of some of its calls.  A program that makes none of these leaves
  the log alone (`Ends.logged`).
-/

namespace Prog

variable {E : Type} {A : E → Type} {σ α β : Type}

/-- Run alone from `s`, the program is never stuck, and when it returns `a` in state `s'` then
`Φ a s'`. -/
def Ends (exec : σ → (e : E) → A e → Option σ) : Prog E A α → σ → (α → σ → Prop) → Prop
  | ret a, s, Φ => Φ a s
  | call e k, s, Φ => (∃ a s', exec s e a = some s') ∧
      ∀ a s', exec s e a = some s' → Ends exec (k a) s' Φ

variable {exec : σ → (e : E) → A e → Option σ} {s : σ}

/-- A weaker postcondition. -/
theorem Ends.mono {p : Prog E A α} {Φ Ψ : α → σ → Prop} (h : p.Ends exec s Φ)
    (hΦ : ∀ a s', Φ a s' → Ψ a s') : p.Ends exec s Ψ := by
  induction p generalizing s with
  | ret a => exact hΦ a s h
  | call e k ih => exact ⟨h.1, fun a s' hexec => ih a (h.2 a s' hexec)⟩

/-- A program followed by another one, by what is known of each. -/
theorem Ends.bind {p : Prog E A α} {f : α → Prog E A β} {Φ : α → σ → Prop} {Ψ : β → σ → Prop}
    (h : p.Ends exec s Φ) (hf : ∀ a s', Φ a s' → (f a).Ends exec s' Ψ) :
    (p >>= f).Ends exec s Ψ := by
  induction p generalizing s with
  | ret a => exact hf a s h
  | call e k ih => exact ⟨h.1, fun a s' hexec => ih a (h.2 a s' hexec)⟩

/-- Two postconditions hold at the end of one run. -/
theorem Ends.exists_and {p : Prog E A α} {Φ Ψ : α → σ → Prop} (h : p.Ends exec s Φ)
    (h' : p.Ends exec s Ψ) : ∃ a s', Φ a s' ∧ Ψ a s' := by
  induction p generalizing s with
  | ret a => exact ⟨a, s, h, h'⟩
  | call e k ih =>
    obtain ⟨a, s', hexec⟩ := h.1
    exact ih a (h.2 a s' hexec) (h'.2 a s' hexec)

/-- A call that has one answer only, followed by a program. -/
theorem ends_perform_bind {e : E} {f : A e → Prog E A α} {Φ : α → σ → Prop} (a₀ : A e) (s₀ : σ)
    (hexec : exec s e a₀ = some s₀) (honly : ∀ a s', exec s e a = some s' → a = a₀ ∧ s' = s₀)
    (hf : (f a₀).Ends exec s₀ Φ) : (perform e >>= f).Ends exec s Φ := by
  refine ⟨⟨a₀, s₀, hexec⟩, fun a s' h => ?_⟩
  obtain ⟨rfl, rfl⟩ := honly a s' h
  exact hf

/-! ### Logs -/

variable {ω : Type}

/-- The run with a log: a call adds `w e` to it. -/
def logged (w : E → List ω) (exec : σ → (e : E) → A e → Option σ) (s : σ × List ω) (e : E)
    (a : A e) : Option (σ × List ω) :=
  (exec s.1 e a).map fun s' => (s', s.2 ++ w e)

theorem logged_eq_some {w : E → List ω} {e : E} {a : A e} {s : σ × List ω} {p : σ × List ω} :
    logged w exec s e a = some p ↔ exec s.1 e a = some p.1 ∧ p.2 = s.2 ++ w e := by
  constructor
  · intro h
    obtain ⟨s', hexec, rfl⟩ := Option.map_eq_some_iff.mp h
    exact ⟨hexec, rfl⟩
  · rintro ⟨hexec, hlog⟩
    exact Option.map_eq_some_iff.mpr ⟨p.1, hexec, Prod.ext rfl hlog.symm⟩

/-- Calls that are not logged. -/
theorem Ends.logged {w : E → List ω} {p : Prog E A α} {Φ : α → σ → Prop} (h : p.Ends exec s Φ)
    (hp : p.Calls fun e => w e = []) (log : List ω) :
    p.Ends (logged w exec) (s, log) fun a q => Φ a q.1 ∧ q.2 = log := by
  induction p generalizing s with
  | ret a => exact ⟨h, rfl⟩
  | call e k ih =>
    obtain ⟨⟨a, s', hexec⟩, hnext⟩ := h
    refine ⟨⟨a, (s', log ++ w e), logged_eq_some.mpr ⟨hexec, rfl⟩⟩, fun a q hq => ?_⟩
    obtain ⟨hexec, hlog⟩ := logged_eq_some.mp hq
    rw [hp.1, List.append_nil] at hlog
    obtain ⟨s', log'⟩ := q
    obtain rfl : log' = log := hlog
    exact ih a (hnext a s' hexec) (hp.2 a)

end Prog
