import SmsGate.Modem.Equiv.Drain
import SmsGate.Modem.Fleet
import SmsGate.Prog.History

/-!
# Whose registration `Deregister` removes

The registry's map has one worker for an ICCID, and `Deregister` deletes what is there, whoever put
it there.  A SIM that is moved to another port is reported by two workers, and the first of them
deregisters when it notices that its modem is gone.  This can be long after the second one has
registered.

A worker that was the last to register an ICCID, and has not deregistered, is the one that `Lookup`
returns iff no other worker has deregistered this ICCID since (`lookup_iff`).
-/

namespace SmsGate.Modem

/-- What has happened in a run of the workers, the newest first. -/
abbrev FleetHistory (O : Type) :=
  List (System.Occurrence (ℕ × Thread) (FleetWorld O) Call Call.Ans FleetOuter)

/-- The configurations of the workers when they are recorded. -/
abbrev FleetConfig (O : Type) :=
  System.Config (ℕ × Thread)
    (System.Recorded (ℕ × Thread) (FleetWorld O) Call Call.Ans FleetOuter) Call Call.Ans Label Exit

section

variable {O C : Type}

/-- Someone has registered an ICCID. -/
def registers (iccid : List UInt8) :
    System.Occurrence (ℕ × Thread) (FleetWorld O) Call Call.Ans FleetOuter → Bool
  | .call _ (.register iccid') _ _ => iccid' = iccid
  | _ => false

/-- The worker that has deregistered an ICCID. -/
def deregisteredBy (iccid : List UInt8) :
    System.Occurrence (ℕ × Thread) (FleetWorld O) Call Call.Ans FleetOuter → Option ℕ
  | .call t (.deregister iccid') _ _ => if iccid' = iccid then some t.1 else none
  | _ => none

variable {h : Host} {w : ℕ → Worker} {outside : ℕ → C → O → (e : Call) → e.Ans → Option O}
  {s s' : FleetWorld O} {iccid : List UInt8}

/-! ### One step -/

theorem workers_of_exec {t : ℕ × Thread} {ch : C} {e : Call} {a : e.Ans}
    (hexec : (fleetSystem h w outside).exec t ch s e a = some s') :
    s'.workers = s.workers.after t.1 e := by
  obtain ⟨s₁, -, rfl⟩ := Option.map_eq_some_iff.mp hexec
  rfl

theorem workers_of_outer {v : FleetOuter} (hstep : v.step w s = some s') :
    s'.workers = s.workers := by
  cases v with
  | lookup iccid =>
    unfold FleetOuter.step at hstep
    dsimp only at hstep
    split at hstep
    · cases hstep; rfl
    · cases hstep; rfl
  | send i task =>
    obtain ⟨s₁, -, rfl⟩ := Option.map_eq_some_iff.mp hstep
    rfl
  | requestReset | cancel | tick =>
    cases hstep
    rfl

/-- A step that neither registers nor deregisters an ICCID leaves its entry alone. -/
theorem lookup_of_leadsTo
    {x : System.Occurrence (ℕ × Thread) (FleetWorld O) Call Call.Ans FleetOuter}
    (hlead : x.LeadsTo (fleetSystem h w outside) s) (hreg : registers iccid x = false)
    (hdereg : deregisteredBy iccid x = none) :
    s.workers.lookup iccid = x.found.workers.lookup iccid := by
  cases x with
  | call t e a s₀ =>
    obtain ⟨ch, hexec⟩ := hlead
    unfold Workers.lookup
    rw [workers_of_exec hexec]
    cases e with
    | register iccid' =>
      have hne : iccid ≠ iccid' := fun heq => of_decide_eq_false hreg heq.symm
      exact Function.update_of_ne hne _ _
    | deregister iccid' =>
      have hne : iccid ≠ iccid' := by
        rintro rfl
        simp only [deregisteredBy, if_true, reduceCtorEq] at hdereg
      exact Function.update_of_ne hne _ _
    | _ => rfl
  | env v s₀ => exact congrFun (workers_of_outer hlead) iccid
  | crash t s₀ =>
    obtain ⟨l, hcrash⟩ := hlead
    cases hcrash

/-- A step that deregisters an ICCID deletes its entry. -/
theorem lookup_of_deregister {i : ℕ}
    {x : System.Occurrence (ℕ × Thread) (FleetWorld O) Call Call.Ans FleetOuter}
    (hlead : x.LeadsTo (fleetSystem h w outside) s) (hdereg : deregisteredBy iccid x = some i) :
    s.workers.lookup iccid = none := by
  cases x with
  | call t e a s₀ =>
    obtain ⟨ch, hexec⟩ := hlead
    cases e with
    | deregister iccid' =>
      obtain ⟨rfl, -⟩ := Option.ite_none_right_eq_some.mp hdereg
      unfold Workers.lookup
      rw [workers_of_exec hexec]
      exact Function.update_self _ _ _
    | _ => cases hdereg
  | env | crash => cases hdereg

/-! ### Whole runs -/

/-- Since an ICCID was registered last, its entry is there until someone deregisters it. -/
theorem lookup_since {later earlier : FleetHistory O} {i : ℕ} {t : Thread}
    {a : Call.Ans (.register iccid)} {s₀ : FleetWorld O}
    (hlinked : System.Linked (fleetSystem h w outside) s
      (later ++ .call (i, t) (.register iccid) a s₀ :: earlier))
    (hlast : ∀ x ∈ later, registers iccid x = false) :
    s.workers.lookup iccid =
      if ∀ x ∈ later, deregisteredBy iccid x = none then some i else none := by
  induction later generalizing s with
  | nil =>
    obtain ⟨⟨ch, hexec⟩, -⟩ := hlinked
    rw [if_pos (List.forall_mem_nil _)]
    unfold Workers.lookup
    rw [workers_of_exec hexec]
    exact Function.update_self _ _ _
  | cons x later ih =>
    obtain ⟨hlead, hrest⟩ := hlinked
    rw [List.forall_mem_cons] at hlast
    have hbefore := ih hrest hlast.2
    cases hdereg : deregisteredBy iccid x with
    | none =>
      rw [lookup_of_leadsTo hlead hlast.1 hdereg, hbefore]
      simp only [List.forall_mem_cons, hdereg, true_and]
    | some j =>
      rw [lookup_of_deregister hlead hdereg, if_neg]
      intro hall
      rw [hall x List.mem_cons_self] at hdereg
      cases hdereg

end

variable {O C : Type} (h : Host) (w : ℕ → Worker)
  (outside : ℕ → C → O → (e : Call) → e.Ans → Option O)

/-- **Who is found in the registry.**  Take any run of any number of workers over one registry, and
a worker `i` that has registered under an ICCID, has not deregistered since, and was not replaced by
a later `Register` for the ICCID.  `Lookup` returns it iff no other worker has deregistered the
ICCID since. -/
theorem lookup_iff {o : ℕ → O} {c : FleetConfig O}
    (hreach : (fleetSystem h w outside).recorded.Reach
      ((fleetSystem h w outside).recorded.start ⟨FleetWorld.new o, []⟩ fleetEntry) c)
    {later earlier : FleetHistory O} {i : ℕ} {iccid : List UInt8} {a : Call.Ans (.register iccid)}
    {s : FleetWorld O}
    (hsplit : c.state.history = later ++ .call (i, .worker) (.register iccid) a s :: earlier)
    (hlast : ∀ x ∈ later, registers iccid x = false)
    (hown : ∀ x ∈ later, deregisteredBy iccid x ≠ some i) :
    c.state.state.workers.lookup iccid = some i ↔
      ∀ j, j ≠ i → ∀ x ∈ later, deregisteredBy iccid x ≠ some j := by
  have hlinked := System.linked_of_reach hreach
  rw [hsplit] at hlinked
  rw [lookup_since hlinked hlast]
  constructor
  · intro hfound j _ x hx hdereg
    obtain ⟨hall, -⟩ := Option.ite_none_right_eq_some.mp hfound
    rw [hall x hx] at hdereg
    cases hdereg
  · intro hothers
    rw [if_pos]
    intro x hx
    cases hdereg : deregisteredBy iccid x with
    | none => rfl
    | some j =>
      by_cases hj : j = i
      · subst hj
        exact absurd hdereg (hown x hx)
      · exact absurd hdereg (hothers j hj x hx)

/-! ### A SIM that is moved to another port -/

/-- Workers on modems that all report the same SIM. -/
abbrev plainFleet :=
  (fleetSystem .plain (fun _ => .plain) fun _ (_ : Unit) (_ : Unit) _ _ => some ()).recorded

/-- Calls of a worker's `Run`. -/
def fleetCalls (i n : ℕ) (selected : Selected) (st : State) :
    List (System.Move (ℕ × Thread) Call Call.Ans Unit FleetOuter) :=
  List.replicate n (.call (i, .worker) () (plainAnswer selected none st))

/-- A worker is started and registers. -/
def fleetStart (i : ℕ) : List (System.Move (ℕ × Thread) Call Call.Ans Unit FleetOuter) :=
  fleetCalls i 16 .reset .active ++ [.jump (i, .worker)]

/-- A worker's modem is reset and does not answer: the worker fails and deregisters. -/
def fleetFail (i : ℕ) : List (System.Move (ℕ × Thread) Call Call.Ans Unit FleetOuter) :=
  .env (.requestReset i) :: fleetCalls i 12 .reset .failed

/-- The first worker fails, and then the second one finds the SIM. -/
theorem lookup_iff_after_fail :
    ∃ (c : FleetConfig Unit) (iccid : List UInt8),
      plainFleet.Reach (plainFleet.start ⟨FleetWorld.new fun _ => (), []⟩ fleetEntry) c ∧
      c.state.state.workers.lookup iccid = some 1 := by
  have hplay : ∃ c, plainFleet.play (plainFleet.start ⟨FleetWorld.new fun _ => (), []⟩ fleetEntry)
      (fleetStart 0 ++ fleetFail 0 ++ fleetStart 1) = some c ∧
      ∃ (later earlier : FleetHistory Unit) (iccid : List UInt8) (s : FleetWorld Unit),
        c.state.history = later ++ .call (1, .worker) (.register iccid) () s :: earlier ∧
        (later.all fun x => ! registers iccid x && (deregisteredBy iccid x).isNone) = true :=
    ⟨_, rfl, [_, _, _, _, _, _], _, _, _, rfl, rfl⟩
  obtain ⟨c, hplay, later, earlier, iccid, s, hsplit, hall⟩ := hplay
  have hquiet : ∀ x ∈ later, registers iccid x = false ∧ deregisteredBy iccid x = none := by
    intro x hx
    simpa using List.all_eq_true.mp hall x hx
  have hreach := System.reach_of_play hplay
  have hnobody : ∀ i, ∀ x ∈ later, deregisteredBy iccid x ≠ some i := by
    intro i x hx
    rw [(hquiet x hx).2]
    nofun
  refine ⟨c, iccid, hreach, ?_⟩
  exact (lookup_iff .plain _ _ hreach hsplit (fun x hx => (hquiet x hx).1) (hnobody 1)).mpr
    fun j _ => hnobody j

/-- The second worker finds the SIM, and then the first one fails: it removes the registration of
the second. -/
theorem not_lookup_moved_sim :
    ∃ (c : FleetConfig Unit) (later earlier : FleetHistory Unit) (iccid : List UInt8)
      (s : FleetWorld Unit),
      plainFleet.Reach (plainFleet.start ⟨FleetWorld.new fun _ => (), []⟩ fleetEntry) c ∧
      c.state.history = later ++ .call (1, .worker) (.register iccid) () s :: earlier ∧
      (∀ x ∈ later, registers iccid x = false) ∧
      (∀ x ∈ later, deregisteredBy iccid x ≠ some 1) ∧
      (c.state.state.worlds 1).registered = true ∧ c.state.state.workers.lookup iccid = none := by
  have hplay : ∃ c, plainFleet.play (plainFleet.start ⟨FleetWorld.new fun _ => (), []⟩ fleetEntry)
      (fleetStart 0 ++ fleetStart 1 ++ fleetFail 0) = some c ∧
      ∃ (later earlier : FleetHistory Unit) (iccid : List UInt8) (s : FleetWorld Unit),
        c.state.history = later ++ .call (1, .worker) (.register iccid) () s :: earlier ∧
        (later.all fun x => ! registers iccid x && decide (deregisteredBy iccid x ≠ some 1)) =
          true ∧
        (c.state.state.worlds 1).registered = true ∧
        c.state.state.workers.lookup iccid = none :=
    ⟨_, rfl, [_, _, _, _, _, _, _, _, _, _, _, _, _, _, _, _, _, _, _], _, _, _, rfl, rfl, rfl,
      rfl⟩
  obtain ⟨c, hplay, later, earlier, iccid, s, hsplit, hall, hend⟩ := hplay
  have hquiet : ∀ x ∈ later, registers iccid x = false ∧ deregisteredBy iccid x ≠ some 1 := by
    intro x hx
    simpa using List.all_eq_true.mp hall x hx
  exact ⟨c, later, earlier, iccid, s, System.reach_of_play hplay, hsplit,
    fun x hx => (hquiet x hx).1, fun x hx => (hquiet x hx).2, hend⟩

end SmsGate.Modem
