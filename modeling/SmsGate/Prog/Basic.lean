import Mathlib.Tactic.Common

/-!
# Programs that make calls

`Prog E A α` is a sequential program that makes calls `e : E`, goes on with the answer of type
`A e`, and returns a value of type `α`.  A program is data: what a call does is left to whoever
runs it, so one program can be run alone, next to others, or be cut off between two calls.

A `Protocol` is an automaton that watches the calls of a program: `allows q e` says that call `e`
may be made in state `q`, and `next q e a` is the state once it was answered by `a`.

* `Obeys`: a program keeps to a protocol, whatever the answers, and ends as a postcondition says;
  `obeys_bind`, `Obeys.mono` and `Obeys.bind` are the rules by which it is proved along the program
  text;
* `Calls`: the calls that a program can make at all.  A program that makes only calls which keep a
  property of the protocol state, or leave it alone, obeys the protocol there
  (`Calls.obeys_of_keeps`, `Calls.obeys`).  `Protocol.only` says the same of a program of which the
  results are to be known too (`Obeys.keeps`);
* `Closed`: the properties of programs that a program text has if its parts have them;
* `Protocol.andThen`: one protocol after the other (`Obeys.andThen_left`, `Obeys.andThen_right`);
* `embed`: a program as a part of one that makes other calls too.
-/

/-- Programs with calls `E`, answers `A` and results `α`. -/
inductive Prog (E : Type) (A : E → Type) (α : Type) : Type where
  /-- The program has returned. -/
  | ret (a : α)
  /-- The program makes a call and goes on with the answer. -/
  | call (e : E) (k : A e → Prog E A α)

namespace Prog

variable {E : Type} {A : E → Type} {Q α β : Type}

/-- Sequencing. -/
def bind : Prog E A α → (α → Prog E A β) → Prog E A β
  | ret a, f => f a
  | call e k, f => call e fun a => bind (k a) f

instance : Monad (Prog E A) where
  pure := ret
  bind := bind

@[simp] theorem call_bind (e : E) (k : A e → Prog E A α) (f : α → Prog E A β) :
    (call e k >>= f) = call e fun a => k a >>= f := rfl

/-- The program that makes one call and returns its answer. -/
def perform (e : E) : Prog E A (A e) := call e ret

end Prog

/-- An automaton that watches the calls of a program. -/
structure Protocol (E : Type) (A : E → Type) (Q : Type) where
  /-- The calls that may be made in a state. -/
  allows : Q → E → Prop
  /-- The state after a call was answered. -/
  next : Q → (e : E) → A e → Q

/-- The protocol of a program that makes only calls of one kind, and of which nothing else is to be
known. -/
def Protocol.only {E : Type} {A : E → Type} {Q : Type} (ok : E → Prop) : Protocol E A Q where
  allows _ e := ok e
  next q _ _ := q

/-- A protocol that follows the second component of a state. -/
def Protocol.onSnd {E : Type} {A : E → Type} {Q : Type} (P : Protocol E A Q) (Q' : Type) :
    Protocol E A (Q' × Q) where
  allows q e := P.allows q.2 e
  next q e a := (q.1, P.next q.2 e a)

/-- One protocol, and another one once the first is done. -/
def Protocol.andThen {E : Type} {A : E → Type} {Q Q' : Type} (P : Protocol E A Q)
    (P' : Protocol E A Q') (isDone : Q → Bool) : Protocol E A (Q × Q') where
  allows q e := if isDone q.1 then P'.allows q.2 e else P.allows q.1 e
  next q e a := if isDone q.1 then (q.1, P'.next q.2 e a) else (P.next q.1 e a, q.2)

/-- Two protocols next to each other. -/
def Protocol.prod {E : Type} {A : E → Type} {Q Q' : Type} (P : Protocol E A Q)
    (P' : Protocol E A Q') : Protocol E A (Q × Q') where
  allows q e := P.allows q.1 e ∧ P'.allows q.2 e
  next q e a := (P.next q.1 e a, P'.next q.2 e a)

namespace Prog

variable {E : Type} {A : E → Type} {Q α β : Type} {P : Protocol E A Q}

/-- From state `q` on, the program makes allowed calls only, and when it returns `a` in state `q'`
then `Φ a q'`. -/
def Obeys (P : Protocol E A Q) : Prog E A α → Q → (α → Q → Prop) → Prop
  | ret a, q, Φ => Φ a q
  | call e k, q, Φ => P.allows q e ∧ ∀ a, Obeys P (k a) (P.next q e a) Φ

theorem obeys_call (e : E) (k : A e → Prog E A α) (q : Q) (Φ : α → Q → Prop) :
    (call e k).Obeys P q Φ ↔ P.allows q e ∧ ∀ a, (k a).Obeys P (P.next q e a) Φ := Iff.rfl

/-- The rule for sequencing. -/
theorem obeys_bind (p : Prog E A α) (f : α → Prog E A β) (q : Q) (Φ : β → Q → Prop) :
    (p >>= f).Obeys P q Φ ↔ p.Obeys P q fun a q' => (f a).Obeys P q' Φ := by
  induction p generalizing q with
  | ret a => rfl
  | call e k ih =>
    rw [call_bind, obeys_call, obeys_call]
    simp only [ih]

/-- A weaker postcondition. -/
theorem Obeys.mono {p : Prog E A α} {q : Q} {Φ Ψ : α → Q → Prop} (h : p.Obeys P q Φ)
    (hΦ : ∀ a q', Φ a q' → Ψ a q') : p.Obeys P q Ψ := by
  induction p generalizing q with
  | ret a => exact hΦ a q h
  | call e k ih => exact ⟨h.1, fun a => ih a (h.2 a)⟩

/-- A protocol that sees less of the state, and allows no less. -/
theorem Obeys.view {Q' : Type} {P' : Protocol E A Q'} {f : Q → Q'} {p : Prog E A α} {q : Q}
    {Φ : α → Q → Prop} (h : p.Obeys P q Φ) (hallows : ∀ q e, P.allows q e → P'.allows (f q) e)
    (hnext : ∀ q e a, P'.next (f q) e a = f (P.next q e a)) :
    p.Obeys P' (f q) fun a q' => ∃ q, f q = q' ∧ Φ a q := by
  induction p generalizing q with
  | ret a => exact ⟨q, rfl, h⟩
  | call e k ih => exact ⟨hallows q e h.1, fun a => (hnext q e a).symm ▸ ih a (h.2 a)⟩

theorem Obeys.onSnd {Q' : Type} {p : Prog E A α} {q : Q' × Q} {Φ : α → Q → Prop}
    (h : p.Obeys P q.2 Φ) : p.Obeys (P.onSnd Q') q fun a q' => Φ a q'.2 := by
  induction p generalizing q with
  | ret a => exact h
  | call e k ih => exact ⟨h.1, fun a => ih a (h.2 a)⟩

/-- The first of two protocols, which allows nothing once it is done. -/
theorem Obeys.andThen_left {Q' : Type} {P' : Protocol E A Q'} {isDone : Q → Bool} {p : Prog E A α}
    {q : Q × Q'} {Φ : α → Q → Prop} (hdone : ∀ q e, P.allows q e → isDone q = false)
    (h : p.Obeys P q.1 Φ) :
    p.Obeys (P.andThen P' isDone) q fun a q' => Φ a q'.1 ∧ q'.2 = q.2 := by
  induction p generalizing q with
  | ret a => exact ⟨h, rfl⟩
  | call e k ih =>
    have hq : ¬ isDone q.1 = true := by
      rw [hdone q.1 e h.1]
      exact Bool.false_ne_true
    refine ⟨?_, fun a => ?_⟩
    · exact (if_neg hq).mpr h.1
    · have hnext : (P.andThen P' isDone).next q e a = (P.next q.1 e a, q.2) := if_neg hq
      rw [hnext]
      exact ih a (h.2 a)

/-- The second one. -/
theorem Obeys.andThen_right {Q' : Type} {P' : Protocol E A Q'} {isDone : Q → Bool}
    {p : Prog E A α} {q : Q × Q'} {Φ : α → Q' → Prop} (hdone : isDone q.1)
    (h : p.Obeys P' q.2 Φ) :
    p.Obeys (P.andThen P' isDone) q fun a q' => q'.1 = q.1 ∧ Φ a q'.2 := by
  induction p generalizing q with
  | ret a => exact ⟨rfl, h⟩
  | call e k ih =>
    refine ⟨?_, fun a => ?_⟩
    · exact (if_pos hdone).mpr h.1
    · have hnext : (P.andThen P' isDone).next q e a = (q.1, P'.next q.2 e a) := if_pos hdone
      rw [hnext]
      exact ih a hdone (h.2 a)

/-- A program that keeps to two protocols. -/
theorem Obeys.prod {Q' : Type} {P' : Protocol E A Q'} {p : Prog E A α} {q : Q} {q' : Q'}
    {Φ : α → Q → Prop} {Φ' : α → Q' → Prop} (h : p.Obeys P q Φ) (h' : p.Obeys P' q' Φ') :
    p.Obeys (P.prod P') (q, q') fun a q => Φ a q.1 ∧ Φ' a q.2 := by
  induction p generalizing q q' with
  | ret a => exact ⟨h, h'⟩
  | call e k ih => exact ⟨⟨h.1, h'.1⟩, fun a => ih a (h.2 a) (h'.2 a)⟩

/-- A program followed by another one, by what is known of each. -/
theorem Obeys.bind {p : Prog E A α} {f : α → Prog E A β} {q : Q} {Φ : α → Q → Prop}
    {Ψ : β → Q → Prop} (h : p.Obeys P q Φ) (hf : ∀ a q', Φ a q' → (f a).Obeys P q' Ψ) :
    (p >>= f).Obeys P q Ψ :=
  (obeys_bind p f q Ψ).mpr (h.mono hf)

/-- A call followed by a program. -/
theorem perform_bind_obeys {e : E} {f : A e → Prog E A α} {q : Q} {Φ : α → Q → Prop}
    (he : P.allows q e) (hf : ∀ a, (f a).Obeys P (P.next q e a) Φ) :
    (perform e >>= f).Obeys P q Φ :=
  ⟨he, hf⟩

/-! ### Footprints -/

/-- Whatever the answers, the program makes only calls of this kind. -/
def Calls (ok : E → Prop) : Prog E A α → Prop
  | ret _ => True
  | call e k => ok e ∧ ∀ a, Calls ok (k a)

variable {ok : E → Prop}

@[simp] theorem calls_pure (a : α) : (pure a : Prog E A α).Calls ok := trivial

@[simp] theorem calls_perform {e : E} : (perform e : Prog E A (A e)).Calls ok ↔ ok e :=
  ⟨fun h => h.1, fun h => ⟨h, fun _ => trivial⟩⟩

theorem Calls.bind {p : Prog E A α} {f : α → Prog E A β} (hp : p.Calls ok)
    (hf : ∀ a, (f a).Calls ok) : (p >>= f).Calls ok := by
  induction p with
  | ret a => exact hf a
  | call e k ih => exact ⟨hp.1, fun a => ih a (hp.2 a)⟩

theorem Calls.ite {c : Prop} {_ : Decidable c} {p p' : Prog E A α} (hp : p.Calls ok)
    (hp' : p'.Calls ok) : (if c then p else p').Calls ok := by
  split_ifs
  · exact hp
  · exact hp'

theorem Calls.mono {ok' : E → Prop} {p : Prog E A α} (hp : p.Calls ok) (h : ∀ e, ok e → ok' e) :
    p.Calls ok' := by
  induction p with
  | ret a => trivial
  | call e k ih => exact ⟨h e hp.1, fun a => ih a (hp.2 a)⟩

theorem Calls.obeys_only {p : Prog E A α} (hp : p.Calls ok) (q : Q) :
    p.Obeys (.only ok) q fun _ _ => True := by
  induction p with
  | ret a => trivial
  | call e k ih => exact ⟨hp.1, fun a => ih a (hp.2 a)⟩

/-- A program that keeps to a protocol makes only the calls that it allows somewhere. -/
theorem Obeys.only {Q' : Type} {p : Prog E A α} {q : Q} {q' : Q'} {Φ : α → Q → Prop}
    (h : p.Obeys P q Φ) (hok : ∀ q e, P.allows q e → ok e) :
    p.Obeys (.only ok) q' fun a _ => ∃ q, Φ a q := by
  induction p generalizing q with
  | ret a => exact ⟨q, h⟩
  | call e k ih => exact ⟨hok q e h.1, fun a => ih a (h.2 a)⟩

/-- Calls that keep a property of the protocol state are allowed, one after the other. -/
theorem Obeys.keeps {p : Prog E A α} {R : α → Q → Prop} {q₀ : Q} {Φ : α → Q → Prop} {I : Q → Prop}
    {q : Q} (hp : p.Obeys (.only ok) q₀ R)
    (hI : ∀ q e, I q → ok e → P.allows q e ∧ ∀ a, I (P.next q e a)) (hq : I q)
    (hΦ : ∀ a q', R a q₀ → I q' → Φ a q') : p.Obeys P q Φ := by
  induction p generalizing q with
  | ret a => exact hΦ a q hp hq
  | call e k ih => exact ⟨(hI q e hq hp.1).1, fun a => ih a (hp.2 a) ((hI q e hq hp.1).2 a)⟩

theorem Calls.obeys_of_keeps {p : Prog E A α} {I : Q → Prop} {q : Q} (hp : p.Calls ok)
    (hI : ∀ q e, I q → ok e → P.allows q e ∧ ∀ a, I (P.next q e a)) (hq : I q) :
    p.Obeys P q fun _ q' => I q' :=
  (hp.obeys_only q).keeps hI hq fun _ _ _ hq' => hq'

/-- Calls that leave a protocol state alone. -/
theorem Calls.obeys {p : Prog E A α} {q : Q} {Φ : α → Q → Prop} (hp : p.Calls ok)
    (hq : ∀ e, ok e → P.allows q e ∧ ∀ a, P.next q e a = q) (hΦ : ∀ a, Φ a q) :
    p.Obeys P q Φ := by
  refine (hp.obeys_of_keeps (I := (· = q)) ?_ rfl).mono ?_
  · rintro _ e rfl he
    exact hq e he
  · rintro a _ rfl
    exact hΦ a

/-- Such calls in front of another program. -/
theorem Calls.bind_obeys {p : Prog E A α} {f : α → Prog E A β} {q : Q} {Φ : β → Q → Prop}
    (hp : p.Calls ok) (hq : ∀ e, ok e → P.allows q e ∧ ∀ a, P.next q e a = q)
    (hf : ∀ a, (f a).Obeys P q Φ) : (p >>= f).Obeys P q Φ :=
  (obeys_bind p f q Φ).mpr (hp.obeys hq hf)

/-! ### Properties along the program text -/

/-- A property that programs have one after the other. -/
structure Closed (S : {α : Type} → Prog E A α → Prop) : Prop where
  pure {α : Type} (a : α) : S (Pure.pure a : Prog E A α)
  bind {α β : Type} {p : Prog E A α} {f : α → Prog E A β} (hp : S p) (hf : ∀ a, S (f a)) :
    S (p >>= f)

theorem Closed.ite {S : {α : Type} → Prog E A α → Prop} (_ : Closed S) {c : Prop} {_ : Decidable c}
    {p p' : Prog E A α} (hp : S p) (hp' : S p') : S (if c then p else p') := by
  split_ifs
  · exact hp
  · exact hp'

theorem closed_calls (ok : E → Prop) : Closed fun {_} (p : Prog E A _) => p.Calls ok :=
  ⟨fun _ => trivial, Calls.bind⟩

end Prog

namespace Prog

variable {E E' : Type} {A : E → Type} {A' : E' → Type} {Q α : Type}

/-- The program among other calls: `e` is made as `f e`, and the answer is read by `g`. -/
def embed (f : E → E') (g : ∀ e, A' (f e) → A e) : Prog E A α → Prog E' A' α
  | ret a => ret a
  | call e k => call (f e) fun a => embed f g (k (g e a))

/-- A protocol that treats the embedded calls as another one does is kept to by what keeps to that
one. -/
theorem Obeys.embed {P : Protocol E A Q} {P' : Protocol E' A' Q} {f : E → E'}
    {g : ∀ e, A' (f e) → A e} {p : Prog E A α} {q : Q} {Φ : α → Q → Prop} (h : p.Obeys P q Φ)
    (hallows : ∀ q e, P.allows q e → P'.allows q (f e))
    (hnext : ∀ q e a, P'.next q (f e) a = P.next q e (g e a)) :
    (p.embed f g).Obeys P' q Φ := by
  induction p generalizing q with
  | ret a => exact h
  | call e k ih =>
    refine ⟨hallows q e h.1, fun a => ?_⟩
    rw [hnext]
    exact ih (g e a) (h.2 (g e a))

end Prog
