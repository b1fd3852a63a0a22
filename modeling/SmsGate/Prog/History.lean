import SmsGate.Prog.System

/-!
# Runs with their history

`S.recorded` is the system `S` that writes down what happens: every call with its answer, every
step of the environment, and the state that it found.  The newest entry stands first.  A property of
runs, "whenever this was done, that had been done before", is then a property of the states of
`S.recorded`, and is proved by an `Outline` like any other.

* `recorded_exec_iff`, `recorded_env_iff`: what a step of the recorded system is;
* `collected`: what a history tells of one kind of occurrence;
* `Linked`: the states of a history follow from each other (`linked_of_reach`), and each of them was
  reached (`exists_reach_of_history`);
* `follow`, `Accepted`: where a history has led a protocol, and that it was kept to;
* `Outline.Traced`: the invariant of an outline held at every point of a history, and every thread
  kept to its protocol (`Outline.reach_traced`).
-/

namespace System

variable {T σ E : Type} {A : E → Type} {L R C V : Type}

/-- What happened, and the state that it found. -/
inductive Occurrence (T σ E : Type) (A : E → Type) (V : Type) where
  | call (t : T) (e : E) (a : A e) (found : σ)
  | env (v : V) (found : σ)
  | crash (t : T) (found : σ)

/-- The state that was found. -/
def Occurrence.found : Occurrence T σ E A V → σ
  | call _ _ _ s | env _ s | crash _ s => s

/-- A state with what has happened so far, the newest first. -/
structure Recorded (T σ E : Type) (A : E → Type) (V : Type) where
  state : σ
  history : List (Occurrence T σ E A V)

/-- The system that writes down what happens. -/
def recorded (S : System T σ E A L R C V) :
    System T (Recorded T σ E A V) E A L R C V where
  block := S.block
  exec t ch s e a :=
    (S.exec t ch s.state e a).map fun s' => ⟨s', .call t e a s.state :: s.history⟩
  env v s := (S.env v s.state).map fun s' => ⟨s', .env v s.state :: s.history⟩
  crash t s :=
    (S.crash t s.state).map fun p => (p.1, ⟨p.2, .crash t s.state :: s.history⟩)

variable {S : System T σ E A L R C V}

theorem recorded_exec_iff {t : T} {ch : C} {s s' : Recorded T σ E A V} {e : E} {a : A e} :
    S.recorded.exec t ch s e a = some s' ↔ ∃ s₁, S.exec t ch s.state e a = some s₁ ∧
      s' = ⟨s₁, .call t e a s.state :: s.history⟩ := by
  refine Option.map_eq_some_iff.trans (exists_congr fun s₁ => and_congr_right fun _ => ?_)
  exact eq_comm

theorem recorded_env_iff {v : V} {s s' : Recorded T σ E A V} :
    S.recorded.env v s = some s' ↔ ∃ s₁, S.env v s.state = some s₁ ∧
      s' = ⟨s₁, .env v s.state :: s.history⟩ := by
  refine Option.map_eq_some_iff.trans (exists_congr fun s₁ => and_congr_right fun _ => ?_)
  exact eq_comm

/-! ### What a history tells -/

/-- What the occurrences of a history contribute, the oldest first. -/
def collected {α : Type} (f : Occurrence T σ E A V → List α) :
    List (Occurrence T σ E A V) → List α
  | [] => []
  | x :: past => collected f past ++ f x

/-- What the calls of a history contribute, the oldest first. -/
def collectedCalls {α : Type} (f : T → σ → (e : E) → A e → List α)
    (past : List (Occurrence T σ E A V)) : List α :=
  collected (fun
    | .call t e a s => f t s e a
    | _ => []) past

theorem collectedCalls_call {α : Type} (f : T → σ → (e : E) → A e → List α) (t : T) (e : E)
    (a : A e) (s : σ) (past : List (Occurrence T σ E A V)) :
    collectedCalls f (.call t e a s :: past) = collectedCalls f past ++ f t s e a := rfl

theorem collectedCalls_env {α : Type} (f : T → σ → (e : E) → A e → List α) (v : V) (s : σ)
    (past : List (Occurrence T σ E A V)) :
    collectedCalls f (.env v s :: past) = collectedCalls f past := List.append_nil _

theorem mem_collected {α : Type} {f : Occurrence T σ E A V → List α}
    {past : List (Occurrence T σ E A V)} {y : α} :
    y ∈ collected f past ↔ ∃ x ∈ past, y ∈ f x := by
  induction past with
  | nil => simp [collected]
  | cons x past ih =>
    simp only [collected, List.mem_append, ih, List.mem_cons, exists_eq_or_imp, or_comm]

theorem collected_map {α β : Type} (f : Occurrence T σ E A V → List α) (g : α → β)
    (past : List (Occurrence T σ E A V)) :
    collected (fun x => (f x).map g) past = (collected f past).map g := by
  induction past with
  | nil => rfl
  | cons x past ih => rw [collected, collected, ih, List.map_append]

/-- Occurrences of two kinds, counted together. -/
theorem collected_perm {α : Type} {f g h : Occurrence T σ E A V → List α}
    (hf : ∀ x, f x = g x ++ h x) (past : List (Occurrence T σ E A V)) :
    (collected f past).Perm (collected g past ++ collected h past) := by
  induction past with
  | nil => exact .refl _
  | cons x past ih =>
    rw [collected, collected, collected, hf x, List.append_assoc]
    refine (ih.append_right _).trans ?_
    rw [List.append_assoc]
    exact (List.perm_append_comm_assoc _ _ _).append_left _

section

variable {Q : Type} [DecidableEq T]

/-- The occurrence leads from the state that it found to another. -/
def Occurrence.LeadsTo (S : System T σ E A L R C V) (s' : σ) : Occurrence T σ E A V → Prop
  | call t e a s => ∃ ch, S.exec t ch s e a = some s'
  | env v s => S.env v s = some s'
  | crash t s => ∃ l, S.crash t s = some (l, s')

/-- Each occurrence leads to the state that the next one found, and the last one to `s`. -/
def Linked (S : System T σ E A L R C V) (s : σ) : List (Occurrence T σ E A V) → Prop
  | [] => True
  | x :: past => x.LeadsTo S s ∧ Linked S x.found past

/-- The state of a thread's protocol after a history. -/
def follow (P : Protocol E A Q) (t : T) (q₀ : Q) : List (Occurrence T σ E A V) → Q
  | [] => q₀
  | .call u e a _ :: past =>
    if u = t then P.next (follow P t q₀ past) e a else follow P t q₀ past
  | _ :: past => follow P t q₀ past

/-- Every call of the thread was allowed when it was made. -/
def Accepted (P : Protocol E A Q) (t : T) (q₀ : Q) : List (Occurrence T σ E A V) → Prop
  | [] => True
  | .call u e _ _ :: past => (u = t → P.allows (follow P t q₀ past) e) ∧ Accepted P t q₀ past
  | _ :: past => Accepted P t q₀ past

variable {P : Protocol E A Q} {t u : T} {q₀ : Q} {s : σ} {past later : List (Occurrence T σ E A V)}

theorem follow_call_self {e : E} {a : A e} :
    follow P t q₀ (.call t e a s :: past) = P.next (follow P t q₀ past) e a :=
  if_pos rfl

theorem follow_call_of_ne (h : u ≠ t) {e : E} {a : A e} :
    follow P t q₀ (.call u e a s :: past) = follow P t q₀ past :=
  if_neg h

/-- The history of every run is linked. -/
theorem linked_of_reach {s₀ : σ} {entry : T → L} {c : Config T (Recorded T σ E A V) E A L R}
    (hreach : S.recorded.Reach (S.recorded.start ⟨s₀, []⟩ entry) c) :
    Linked S c.state.state c.state.history := by
  induction hreach with
  | refl => trivial
  | tail _ hstep ih =>
    cases hstep with
    | call t ch a hrun hexec =>
      obtain ⟨s₁, hcall, rfl⟩ := recorded_exec_iff.mp hexec
      exact ⟨⟨ch, hcall⟩, ih⟩
    | jump t hrun => exact ih
    | stop t hrun => exact ih
    | env v henv =>
      obtain ⟨s₁, hstep, rfl⟩ := recorded_env_iff.mp henv
      exact ⟨hstep, ih⟩
    | crash t hcrash =>
      obtain ⟨⟨l, s₁⟩, hstep, hs⟩ := Option.map_eq_some_iff.mp hcrash
      cases hs
      exact ⟨⟨l, hstep⟩, ih⟩

/-- A run only adds to the history. -/
theorem exists_append_of_reach {c c' : Config T (Recorded T σ E A V) E A L R}
    (hreach : S.recorded.Reach c c') :
    ∃ later, c'.state.history = later ++ c.state.history := by
  induction hreach with
  | refl => exact ⟨[], rfl⟩
  | tail _ hstep ih =>
    obtain ⟨later, ih⟩ := ih
    cases hstep with
    | call t ch a hrun hexec =>
      obtain ⟨s₁, -, rfl⟩ := recorded_exec_iff.mp hexec
      exact ⟨_ :: later, congrArg _ ih⟩
    | jump t hrun => exact ⟨later, ih⟩
    | stop t hrun => exact ⟨later, ih⟩
    | env v henv =>
      obtain ⟨s₁, -, rfl⟩ := recorded_env_iff.mp henv
      exact ⟨_ :: later, congrArg _ ih⟩
    | crash t hcrash =>
      obtain ⟨⟨l, s₁⟩, -, hs⟩ := Option.map_eq_some_iff.mp hcrash
      cases hs
      exact ⟨_ :: later, congrArg _ ih⟩

/-- What the configuration does next. -/
def Occurrence.Next (S : System T σ E A L R C V) (c : Config T (Recorded T σ E A V) E A L R) :
    Occurrence T σ E A V → Prop
  | call t e a s => ∃ k ch s', c.threads t = .running (.call e k) ∧ S.exec t ch s e a = some s'
  | env _ _ | crash _ _ => True

/-- Every point of a history was reached, and what is written there came next. -/
theorem exists_reach_of_history {s₀ : Recorded T σ E A V} {entry : T → L}
    {c : Config T (Recorded T σ E A V) E A L R} {x : Occurrence T σ E A V}
    (hreach : S.recorded.Reach (S.recorded.start s₀ entry) c) (hstart : s₀.history = [])
    (hhistory : c.state.history = later ++ x :: past) :
    ∃ c', S.recorded.Reach (S.recorded.start s₀ entry) c' ∧ c'.state = ⟨x.found, past⟩ ∧
      x.Next S c' := by
  induction hreach generalizing later with
  | refl =>
    have hnil : later ++ x :: past = [] := hhistory.symm.trans hstart
    simp at hnil
  | @tail c₁ c₂ hreach hstep ih =>
    -- the step has put at most one occurrence in front
    have hfront : ∀ {y : Occurrence T σ E A V}, y :: c₁.state.history = later ++ x :: past →
        y.found = c₁.state.state → y.Next S c₁ →
        ∃ c', S.recorded.Reach (S.recorded.start s₀ entry) c' ∧ c'.state = ⟨x.found, past⟩ ∧
          x.Next S c' := by
      intro y heq hfound hnext
      cases later with
      | nil =>
        obtain ⟨rfl, hpast⟩ := List.cons.inj heq
        exact ⟨c₁, hreach, by rw [hfound, ← hpast], hnext⟩
      | cons z later => exact ih (List.cons.inj heq).2
    cases hstep with
    | call t ch a hrun hexec =>
      obtain ⟨s₁, hcall, rfl⟩ := recorded_exec_iff.mp hexec
      exact hfront hhistory rfl ⟨_, ch, s₁, hrun, hcall⟩
    | jump t hrun => exact ih hhistory
    | stop t hrun => exact ih hhistory
    | env v henv =>
      obtain ⟨s₁, -, rfl⟩ := recorded_env_iff.mp henv
      exact hfront hhistory rfl trivial
    | crash t hcrash =>
      obtain ⟨⟨l, s₁⟩, -, hs⟩ := Option.map_eq_some_iff.mp hcrash
      cases hs
      exact hfront hhistory rfl trivial

omit [DecidableEq T] in
theorem Linked.of_append (h : Linked S s (later ++ past)) : ∃ s', Linked S s' past := by
  induction later generalizing s with
  | nil => exact ⟨s, h⟩
  | cons x later ih => exact ih h.2

theorem Accepted.tail {x : Occurrence T σ E A V} (h : Accepted P t q₀ (x :: past)) :
    Accepted P t q₀ past := by
  cases x with
  | call u e a s => exact h.2
  | env v s => exact h
  | crash u s => exact h

theorem Accepted.of_append (h : Accepted P t q₀ (later ++ past)) : Accepted P t q₀ past := by
  induction later with
  | nil => exact h
  | cons x later ih => exact ih h.tail

/-- A thread that makes only calls of one kind has made no others. -/
theorem Accepted.of_mem {ok : E → Prop} {e : E} {a : A e}
    (h : Accepted (Protocol.only ok) t q₀ past) (hmem : .call t e a s ∈ past) : ok e := by
  induction past with
  | nil => exact absurd hmem List.not_mem_nil
  | cons x past ih =>
    rcases List.mem_cons.mp hmem with rfl | hmem
    · exact h.1 rfl
    · exact ih h.tail hmem

end

/-! ### An outline along a history -/

section

variable {Q : Type} [DecidableEq T] {P : T → Protocol E A Q} {q₀ : T → Q}
  {past later : List (Occurrence T σ E A V)}

/-- The states of all protocols after a history. -/
def positions (P : T → Protocol E A Q) (q₀ : T → Q) (past : List (Occurrence T σ E A V)) : T → Q :=
  fun t => follow (P t) t (q₀ t) past

theorem positions_call {t : T} {e : E} {a : A e} {s : σ} :
    positions P q₀ (.call t e a s :: past) =
      Function.update (positions P q₀ past) t ((P t).next (positions P q₀ past t) e a) := by
  funext u
  by_cases hu : u = t
  · subst hu
    rw [Function.update_self]
    exact follow_call_self
  · rw [Function.update_of_ne hu]
    exact follow_call_of_ne (Ne.symm hu)

/-- A call is one that the protocol of its thread allows. -/
def Occurrence.Allowed (P : T → Protocol E A Q) (q : T → Q) : Occurrence T σ E A V → Prop
  | call t e _ _ => (P t).allows (q t) e
  | env _ _ | crash _ _ => True

namespace Outline

/-- The invariant held at every point of a history that has led to `s`, and every call was allowed
where it was made. -/
def Traced (O : Outline S P) (q₀ : T → Q) (s : σ) : List (Occurrence T σ E A V) → Prop
  | [] => O.inv s q₀
  | x :: past => (O.inv s (positions P q₀ (x :: past)) ∧ x.LeadsTo S s ∧
      x.Allowed P (positions P q₀ past)) ∧ Traced O q₀ x.found past

theorem Traced.inv {O : Outline S P} {s : σ} (h : O.Traced q₀ s past) :
    O.inv s (positions P q₀ past) := by
  cases past with
  | nil => exact h
  | cons x past => exact h.1.1

theorem Traced.of_append {O : Outline S P} {s : σ} (h : O.Traced q₀ s (later ++ past)) :
    ∃ s', O.Traced q₀ s' past := by
  induction later generalizing s with
  | nil => exact ⟨s, h⟩
  | cons x later ih => exact ih h.2

theorem Traced.linked {O : Outline S P} {s : σ} (h : O.Traced q₀ s past) : Linked S s past := by
  induction past generalizing s with
  | nil => trivial
  | cons x past ih => exact ⟨h.1.2.1, ih h.2⟩

theorem Traced.accepted {O : Outline S P} {s : σ} (h : O.Traced q₀ s past) (t : T) :
    Accepted (P t) t (q₀ t) past := by
  induction past generalizing s with
  | nil => trivial
  | cons x past ih =>
    cases x with
    | call u e a s₀ =>
      refine ⟨?_, ih h.2⟩
      rintro rfl
      exact h.1.2.2
    | env v s₀ => exact ih h.2
    | crash u s₀ => exact ih h.2

/-- The history of the runs of a system that does not crash is traced. -/
def trace (O : Outline S P) (q₀ : T → Q) (hcrash : ∀ t s, S.crash t s = none) :
    Outline S.recorded P where
  head := O.head
  final := O.final
  inv s q := q = positions P q₀ s.history ∧ O.Traced q₀ s.state s.history
  block_obeys := O.block_obeys
  call_inv t ch s q e a s' hinv hallow hexec := by
    obtain ⟨s₁, hcall, rfl⟩ := recorded_exec_iff.mp hexec
    obtain ⟨rfl, htraced⟩ := hinv
    -- the newest point needs the invariant of `O`; the older ones are traced already
    have hnext := O.call_inv t ch s.state _ e a s₁ htraced.inv hallow hcall
    refine ⟨positions_call.symm, ⟨?_, ⟨ch, hcall⟩, hallow⟩, htraced⟩
    rwa [positions_call]
  env_inv v s q s' hinv hstep := by
    obtain ⟨s₁, henv, rfl⟩ := recorded_env_iff.mp hstep
    obtain ⟨rfl, htraced⟩ := hinv
    exact ⟨rfl, ⟨O.env_inv v s.state _ s₁ htraced.inv henv, henv, trivial⟩, htraced⟩
  crash_inv t s q l s' hinv hstep := by
    obtain ⟨p, hp, -⟩ := Option.map_eq_some_iff.mp hstep
    rw [hcrash] at hp
    cases hp

/-- Every run is traced, and every thread is where its protocol says it is. -/
theorem reach_traced (O : Outline S P) (hcrash : ∀ t s, S.crash t s = none) {s : σ}
    {entry : T → L} (hinv : O.inv s q₀) (hhead : ∀ t, O.head t (entry t) (q₀ t))
    {c : Config T (Recorded T σ E A V) E A L R}
    (hreach : S.recorded.Reach (S.recorded.start ⟨s, []⟩ entry) c) :
    O.Traced q₀ c.state.state c.state.history ∧
      ∀ t, O.Follows t (c.threads t) (positions P q₀ c.state.history t) := by
  have hstart : (O.trace q₀ hcrash).Holds (S.recorded.start ⟨s, []⟩ entry) :=
    (O.trace q₀ hcrash).holds_start (q := q₀) ⟨rfl, hinv⟩ hhead
  obtain ⟨q, ⟨rfl, htraced⟩, hfollows⟩ := (O.trace q₀ hcrash).reach hstart hreach
  refine ⟨htraced, fun t => ?_⟩
  have ht := hfollows t
  cases hrun : c.threads t with
  | running p =>
    rw [hrun] at ht
    exact ht
  | stopped r =>
    rw [hrun] at ht
    exact ht

end Outline

end

end System
