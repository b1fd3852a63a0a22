import SmsGate.Gateway.Equiv.Tasks
import SmsGate.Modem.Equiv.Identity

/-!
# Tasks reach the SIM that they are for

A task names an ICCID in its payload.  `Router.Dispatch` looks it up in the registry and sends the
task to what it finds, and in between the worker can fail, be replaced, and register again under
another ICCID: a SIM can be changed.  Still a task that a worker takes names the ICCID under which
this worker has registered (`task_for_sim`).

A worker is an `Address` here, one attempt of a supervisor: a send to the channel of an old worker
does not reach the new one.
-/

namespace SmsGate.Gateway

open Go Tunnel Modem

variable {ι : Type}

/-- The worker of a modem. -/
def World.current (s : World ι) (i : ι) : Address ι := ⟨i, (s.modems i).attempt⟩

/-- A worker has registered under an ICCID. -/
def RegisteredAs (past : History ι) (a : Address ι) (iccid : List UInt8) : Prop :=
  ∃ s, .call (.modem a.modem .supervisor) (.modem (.work (.register iccid))) () s ∈ past ∧
    s.current a.modem = a

/-- The ICCID in the payload of a task is the one of a worker. -/
def ForWorker (h : Router.Host) (past : History ι) (a : Address ι) (task : Task) : Prop :=
  ∃ iccid, Router.extractICCID h task = .ok iccid ∧ RegisteredAs past a iccid

/-- A worker takes a task to execute it. -/
abbrev takes (i : ι) (it : InboundTask) (s : World ι) :
    System.Occurrence (Thread ι) (World ι) (Call ι) Call.Ans (Outer ι) :=
  .call (.modem i .supervisor) (.modem (.work .select)) (.task it) s

/-- The task that a worker takes in a step, and its modem. -/
def takenIn : System.Occurrence (Thread ι) (World ι) (Call ι) Call.Ans (Outer ι) →
    Option (ι × InboundTask)
  | .call (.modem i .supervisor) (.modem (.work .select)) (.task it : Modem.Selected) _ =>
    some (i, it)
  | _ => none

theorem eq_takes_of_takenIn
    {x : System.Occurrence (Thread ι) (World ι) (Call ι) Call.Ans (Outer ι)} {i : ι}
    {it : InboundTask} (htaken : takenIn x = some (i, it)) : ∃ s, x = takes i it s := by
  unfold takenIn at htaken
  split at htaken
  · cases htaken
    exact ⟨_, rfl⟩
  · cases htaken

section

variable {h : Router.Host} {s : World ι} {past : History ι}
  {x : System.Occurrence (Thread ι) (World ι) (Call ι) Call.Ans (Outer ι)} {a : Address ι}

theorem RegisteredAs.cons {iccid : List UInt8} (hreg : RegisteredAs past a iccid) :
    RegisteredAs (x :: past) a iccid := by
  obtain ⟨s, hmem, ha⟩ := hreg
  exact ⟨s, List.mem_cons_of_mem _ hmem, ha⟩

theorem ForWorker.cons {task : Task} (hfor : ForWorker h past a task) :
    ForWorker h (x :: past) a task := by
  obtain ⟨iccid, hiccid, hreg⟩ := hfor
  exact ⟨iccid, hiccid, hreg.cons⟩

/-- The ICCID that a call registers. -/
def registersIn : System.Occurrence (Thread ι) (World ι) (Call ι) Call.Ans (Outer ι) →
    Option (Address ι × List UInt8)
  | .call (.modem i .supervisor) (.modem (.work (.register iccid))) _ s =>
    some (s.current i, iccid)
  | _ => none

theorem registeredAs_cons_iff {iccid : List UInt8} : RegisteredAs (x :: past) a iccid ↔
    registersIn x = some (a, iccid) ∨ RegisteredAs past a iccid := by
  constructor
  · rintro ⟨s, hmem, ha⟩
    rcases List.mem_cons.mp hmem with heq | hpast
    · rw [← heq, ← ha]
      exact .inl rfl
    · exact .inr ⟨s, hpast, ha⟩
  · rintro (hx | hreg)
    · unfold registersIn at hx
      split at hx
      · cases hx
        exact ⟨_, List.mem_cons_self, rfl⟩
      · cases hx
    · exact hreg.cons

end

/-! ### The router -/

/-- A task is sent to a worker that was found under its ICCID. -/
def foundProtocol (ι : Type) (h : Router.Host) :
    Protocol (Call ι) Call.Ans (Option (List UInt8 × Address ι)) where
  allows q c :=
    match c with
    | .send a task => ∃ iccid, q = some (iccid, a) ∧ Router.extractICCID h task = .ok iccid
    | .modem _ => False
    | _ => True
  next q c a :=
    match c, a with
    | .lookup iccid, (found : Option (Address ι)) => found.map (iccid, ·)
    | _, _ => q

theorem dispatch_obeys_found (h : Router.Host) (task : Task)
    (q : Option (List UInt8 × Address ι)) :
    (dispatch h task).Obeys (foundProtocol ι h) q fun _ _ => True := by
  unfold dispatch
  cases hiccid : Router.extractICCID h task with
  | error text => trivial
  | ok iccid =>
    refine Prog.perform_bind_obeys trivial fun (found : Option (Address ι)) => ?_
    cases found with
    | none => trivial
    | some w =>
      refine Prog.perform_bind_obeys ⟨iccid, rfl, hiccid⟩ fun (sent : Bool) => ?_
      cases sent with
      | true => trivial
      | false => trivial

theorem tunnelCall_obeys_found (h : Router.Host) (q : Option (List UInt8 × Address ι))
    (c : Tunnel.Call) : (tunnelCall h c).Obeys (foundProtocol ι h) q fun _ _ => True := by
  cases c with
  | route task => exact dispatch_obeys_found h task q
  | _ => exact ⟨trivial, fun _ => trivial⟩

/-! ### The invariant -/

section Invariant

variable (h : Router.Host) (s : World ι) (past : History ι)
  (q : Thread ι → Option (List UInt8 × Address ι) × Option (List UInt8))

/-- What the registry, the channels and the goroutines have to do with the registrations. -/
structure RouteInv : Prop where
  registry : ∀ iccid a, s.workers iccid = some a → RegisteredAs past a iccid
  found : ∀ t x, (q (.tunnel t)).1 = some x → RegisteredAs past x.2 x.1
  channel : ∀ i, ∀ task ∈ s.channel i, ForWorker h past (s.current i) task
  identity : ∀ i iccid, RegisteredAs past (s.current i) iccid →
    (q (.modem i .supervisor)).2 = some iccid
  recent : ∀ a iccid, RegisteredAs past a iccid → a.attempt ≤ (s.modems a.modem).attempt
  unique : ∀ a iccid iccid', RegisteredAs past a iccid → RegisteredAs past a iccid' →
    iccid = iccid'
  taken : ∀ i it s₀ earlier, takes i it s₀ :: earlier <:+ past →
    ForWorker h earlier (s₀.current i) it.task

end Invariant

section Steps

variable {h : Router.Host} {s s' : World ι} {past : History ι}
  {q q' : Thread ι → Option (List UInt8 × Address ι) × Option (List UInt8)}
  {x : System.Occurrence (Thread ι) (World ι) (Call ι) Call.Ans (Outer ι)}

theorem routeInv_new [DecidableEq ι] (sims : ι → Sim) (table : Buffer.Table) :
    RouteInv h (.new sims table) [] (fun _ : Thread ι => (none, none)) where
  registry _ _ hfound := by cases hfound
  found _ _ hq := by cases hq
  channel _ _ hmem := by cases hmem
  identity _ _ hreg := by cases hreg.choose_spec.1
  recent _ _ hreg := by cases hreg.choose_spec.1
  unique _ _ _ hreg := by cases hreg.choose_spec.1
  taken _ _ _ _ hsuffix := by cases List.suffix_nil.mp hsuffix

/-- What a worker goes on with: it is the same and has been sent no task that is not for it, or it
is a new one. -/
def GoesOn (h : Router.Host) (s s' : World ι) (past : History ι)
    (q q' : Thread ι → Option (List UInt8 × Address ι) × Option (List UInt8)) (i : ι) : Prop :=
  (s'.current i = s.current i ∧
      (∀ task ∈ s'.channel i, task ∈ s.channel i ∨ ForWorker h past (s.current i) task) ∧
      (q' (.modem i .supervisor)).2 = (q (.modem i .supervisor)).2) ∨
    ((s.modems i).attempt < (s'.modems i).attempt ∧ s'.channel i = [])

theorem RouteInv.taken_cons (hinv : RouteInv h s past q)
    (hx : ∀ i it s₀, x = takes i it s₀ → s₀ = s ∧ it.task ∈ s.channel i) (i : ι) (it : InboundTask)
    (s₀ : World ι) (earlier : History ι) (hsuffix : takes i it s₀ :: earlier <:+ x :: past) :
    ForWorker h earlier (s₀.current i) it.task := by
  rcases List.suffix_cons_iff.mp hsuffix with heq | hpast
  · obtain ⟨hnow, rfl⟩ := List.cons.inj heq
    obtain ⟨rfl, hmem⟩ := hx i it s₀ hnow.symm
    exact hinv.channel i _ hmem
  · exact hinv.taken i it s₀ earlier hpast

/-- A step in which no worker registers. -/
theorem RouteInv.step (hinv : RouteInv h s past q) (hx : registersIn x = none)
    (hworkers : ∀ iccid a, s'.workers iccid = some a → s.workers iccid = some a)
    (hfound : ∀ t y, (q' (.tunnel t)).1 = some y →
      (q (.tunnel t)).1 = some y ∨ s.workers y.1 = some y.2)
    (hworker : ∀ i, GoesOn h s s' past q q' i)
    (htaken : ∀ i it s₀, x = takes i it s₀ → s₀ = s ∧ it.task ∈ s.channel i) :
    RouteInv h s' (x :: past) q' := by
  have hreg : ∀ {a iccid}, RegisteredAs (x :: past) a iccid → RegisteredAs past a iccid := by
    intro a iccid hreg
    refine (registeredAs_cons_iff.mp hreg).resolve_left ?_
    rw [hx]
    rintro ⟨⟩
  refine ⟨?_, ?_, ?_, ?_, ?_, ?_, hinv.taken_cons htaken⟩
  · exact fun iccid a hentry => (hinv.registry iccid a (hworkers iccid a hentry)).cons
  · intro t y hy
    rcases hfound t y hy with hold | hentry
    · exact (hinv.found t y hold).cons
    · exact (hinv.registry _ _ hentry).cons
  · intro i task hmem
    rcases hworker i with ⟨hcurrent, hchannel, -⟩ | ⟨-, hempty⟩
    · rw [hcurrent]
      exact ((hchannel task hmem).elim (hinv.channel i task) id).cons
    · rw [hempty] at hmem
      cases hmem
  · intro i iccid hiccid
    rcases hworker i with ⟨hcurrent, -, hq⟩ | ⟨hlt, -⟩
    · rw [hq]
      rw [hcurrent] at hiccid
      exact hinv.identity i iccid (hreg hiccid)
    · exact absurd (hinv.recent _ _ (hreg hiccid)) (Nat.not_le.mpr hlt)
  · intro a iccid hiccid
    refine (hinv.recent a iccid (hreg hiccid)).trans ?_
    rcases hworker a.modem with ⟨hcurrent, -⟩ | ⟨hlt, -⟩
    · exact (congrArg Address.attempt hcurrent).ge
    · exact hlt.le
  · exact fun a iccid iccid' h₁ h₂ => hinv.unique a iccid iccid' (hreg h₁) (hreg h₂)

variable {ch : Chance}

/-- A call of the tunnel that has nothing to do with the router. -/
theorem routeInv_tunnel {u : Tunnel.Thread} {c : Tunnel.Call} {a : c.Ans} {tunnel : Tunnel.World}
    (hinv : RouteInv h s past q) :
    RouteInv h { s with tunnel } (.call (.tunnel u) (.tunnel c) a s :: past) q :=
  hinv.step rfl (fun _ _ hentry => hentry) (fun _ _ hy => .inl hy)
    (fun _ => .inl ⟨rfl, fun _ hmem => .inl hmem, rfl⟩)
    (by rintro i it s₀ ⟨⟩)

theorem workers_of_shared {i : ι} {c : SupervisorCall} {a : c.Ans}
    (hc : ∀ iccid, c ≠ .work (.register iccid)) (hshared : s.shared ch i c a = some s')
    (iccid : List UInt8) (addr : Address ι) (hentry : s'.workers iccid = some addr) :
    s.workers iccid = some addr := by
  cases c with
  | work e =>
    cases e with
    | register iccid' => exact absurd rfl (hc iccid')
    | deregister iccid' =>
      cases hshared
      change Function.update s.workers iccid' none iccid = some addr at hentry
      by_cases heq : iccid = iccid'
      · subst heq
        rw [Function.update_self] at hentry
        cases hentry
      · rwa [Function.update_of_ne heq] at hentry
    | insert m =>
      obtain ⟨-, hs⟩ := Option.ite_none_right_eq_some.mp hshared
      cases hs
      exact hentry
    | event | ack =>
      cases hshared
      unfold World.push at hentry
      split_ifs at hentry <;> exact hentry
    | _ =>
      cases hshared
      exact hentry
  | _ =>
    cases hshared
    exact hentry

variable [DecidableEq ι] {w : ι → Worker}

/-- A worker registers, for the first time. -/
theorem RouteInv.register {i : ι} {iccid : List UInt8} (hinv : RouteInv h s past q)
    (hnone : (q (.modem i .supervisor)).2 = none)
    (hworkers : s'.workers = Function.update s.workers iccid (some (s.current i)))
    (hcurrent : ∀ j, s'.current j = s.current j) (hchannel : ∀ j, s'.channel j = s.channel j) :
    RouteInv h s'
      (.call (.modem i .supervisor) (.modem (.work (.register iccid))) () s :: past)
      (Function.update q (.modem i .supervisor) ((q (.modem i .supervisor)).1, some iccid)) := by
  have hnew : RegisteredAs
      (.call (.modem i .supervisor) (.modem (.work (.register iccid))) () s :: past)
      (s.current i) iccid := registeredAs_cons_iff.mpr (.inl rfl)
  have hcases : ∀ {a iccid'}, RegisteredAs
      (.call (.modem i .supervisor) (.modem (.work (.register iccid))) () s :: past) a iccid' →
      (a = s.current i ∧ iccid' = iccid) ∨ (a ≠ s.current i ∧ RegisteredAs past a iccid') := by
    intro a iccid' hreg
    rcases registeredAs_cons_iff.mp hreg with hx | hpast
    · cases hx
      exact .inl ⟨rfl, rfl⟩
    · refine .inr ⟨?_, hpast⟩
      rintro rfl
      -- it would have registered before
      rw [hinv.identity i iccid' hpast] at hnone
      cases hnone
  refine ⟨?_, ?_, ?_, ?_, ?_, ?_, hinv.taken_cons (by rintro j it s₀ ⟨⟩)⟩
  · intro iccid' a hentry
    rw [hworkers] at hentry
    by_cases heq : iccid' = iccid
    · subst heq
      rw [Function.update_self] at hentry
      cases hentry
      exact hnew
    · rw [Function.update_of_ne heq] at hentry
      exact (hinv.registry iccid' a hentry).cons
  · intro t y hy
    rw [Function.update_of_ne (by simp)] at hy
    exact (hinv.found t y hy).cons
  · intro j task hmem
    rw [hchannel] at hmem
    rw [hcurrent]
    exact (hinv.channel j task hmem).cons
  · intro j iccid' hreg
    rw [hcurrent] at hreg
    rcases hcases hreg with ⟨hj, rfl⟩ | ⟨hj, hpast⟩
    · cases congrArg Address.modem hj
      rw [Function.update_self]
    · have hne : j ≠ i := fun heq => hj (congrArg s.current heq)
      rw [Function.update_of_ne (by simpa using hne)]
      exact hinv.identity j iccid' hpast
  · intro a iccid' hreg
    have hattempt : (s'.modems a.modem).attempt = (s.modems a.modem).attempt :=
      congrArg Address.attempt (hcurrent a.modem)
    rw [hattempt]
    rcases hcases hreg with ⟨rfl, -⟩ | ⟨-, hpast⟩
    · exact Nat.le_refl _
    · exact hinv.recent a iccid' hpast
  · intro a iccid₁ iccid₂ h₁ h₂
    rcases hcases h₁ with ⟨rfl, rfl⟩ | ⟨hne, hpast₁⟩
    · rcases hcases h₂ with ⟨-, rfl⟩ | ⟨hne, -⟩
      · rfl
      · exact absurd rfl hne
    · rcases hcases h₂ with ⟨heq, -⟩ | ⟨-, hpast₂⟩
      · exact absurd heq hne
      · exact hinv.unique a iccid₁ iccid₂ hpast₁ hpast₂

/-! ### The steps -/

theorem current_setWorker (i : ι) (m : Modem.World Sim) (j : ι) :
    (s.setWorker i m).current j = s.current j := by
  by_cases hj : j = i
  · subst hj
    simp only [World.current, World.setWorker, World.setModem, Function.update_self]
  · simp only [World.current, World.setWorker, World.setModem, Function.update_of_ne hj]

theorem attempt_of_exec {u : SupervisorThread} {m m' : SupervisorWorld Sim} {c : SupervisorCall}
    {a : c.Ans} (hc : c ≠ .newWorker) (hexec : m.exec Sim.exec u ch c a = some m') :
    m'.attempt = m.attempt := by
  cases c with
  | newWorker => exact absurd rfl hc
  | ctxErr | backOff =>
    obtain ⟨-, hs⟩ := Option.ite_none_right_eq_some.mp hexec
    cases hs
    rfl
  | work e =>
    cases u with
    | supervisor =>
      obtain ⟨m₁, -, rfl⟩ := Option.map_eq_some_iff.mp hexec
      rfl
    | watchdog n =>
      simp only [SupervisorWorld.exec] at hexec
      split_ifs at hexec
      · cases hexec
        rfl
      · obtain ⟨m₁, -, rfl⟩ := Option.map_eq_some_iff.mp hexec
        rfl

theorem current_of_shared {i : ι} {u : SupervisorThread} {c : SupervisorCall} {a : c.Ans}
    {m : SupervisorWorld Sim} (hc : c ≠ .newWorker)
    (hexec : (s.modems i).exec Sim.exec u ch c a = some m)
    (hshared : (s.setModem i m).shared ch i c a = some s') (j : ι) :
    s'.current j = s.current j := by
  obtain ⟨hmodems, -, -⟩ := shared_eq hshared
  by_cases hj : j = i
  · subst hj
    simp only [World.current, hmodems, World.setModem, Function.update_self,
      attempt_of_exec hc hexec]
  · simp only [World.current, hmodems, World.setModem, Function.update_of_ne hj]

theorem routeInv_lookup {u : Tunnel.Thread} {iccid : List UInt8} {a : Option (Address ι)}
    (hinv : RouteInv h s past q) (hexec : s.exec w (.tunnel u) ch (.lookup iccid) a = some s') :
    RouteInv h s' (.call (.tunnel u) (.lookup iccid) a s :: past)
      (Function.update q (.tunnel u) (a.map (iccid, ·), (q (.tunnel u)).2)) := by
  have hchannel := channel_lookup hexec
  obtain ⟨ha, hs⟩ := Option.ite_none_right_eq_some.mp hexec
  cases hs
  have hfound : (s.found a).workers = s.workers ∧ ∀ i, (s.found a).current i = s.current i := by
    cases a with
    | none => exact ⟨rfl, fun _ => rfl⟩
    | some a =>
      unfold World.found
      dsimp only
      split_ifs
      · exact ⟨rfl, current_setWorker _ _⟩
      · exact ⟨rfl, fun _ => rfl⟩
  refine hinv.step rfl ?_ ?_ (fun i => .inl ⟨hfound.2 i, fun task hmem => ?_, ?_⟩)
    (by rintro i it s₀ ⟨⟩)
  · intro iccid' addr hentry
    rwa [hfound.1] at hentry
  · intro t y hy
    by_cases ht : t = u
    · subst ht
      rw [Function.update_self] at hy
      obtain ⟨addr, haddr, rfl⟩ := Option.map_eq_some_iff.mp hy
      exact .inr (ha.symm.trans haddr)
    · rw [Function.update_of_ne (by simpa using ht)] at hy
      exact .inl hy
  · rw [hchannel] at hmem
    exact .inl hmem
  · rw [Function.update_of_ne (by simp)]

theorem routeInv_send {u : Tunnel.Thread} {addr : Address ι} {task : Task} {sent : Bool}
    (hinv : RouteInv h s past q)
    (hallow : ∃ iccid, (q (.tunnel u)).1 = some (iccid, addr) ∧
      Router.extractICCID h task = .ok iccid)
    (hexec : s.exec w (.tunnel u) ch (.send addr task) sent = some s') :
    RouteInv h s' (.call (.tunnel u) (.send addr task) sent s :: past) q := by
  obtain ⟨iccid, hq, hiccid⟩ := hallow
  have hfor : ForWorker h past addr task := ⟨iccid, hiccid, hinv.found u _ hq⟩
  have hchannel := channel_send hexec
  have hrest : s'.workers = s.workers ∧ ∀ i, s'.current i = s.current i := by
    simp only [World.exec, World.send] at hexec
    split_ifs at hexec
    · obtain ⟨m, -, rfl⟩ := Option.map_eq_some_iff.mp hexec
      exact ⟨rfl, current_setWorker _ _⟩
    · cases hexec
      exact ⟨rfl, fun _ => rfl⟩
  refine hinv.step rfl ?_ (fun _ _ hy => .inl hy)
    (fun i => .inl ⟨hrest.2 i, fun task' hmem => ?_, rfl⟩)
    (by rintro i it s₀ ⟨⟩)
  · intro iccid' a hentry
    rwa [hrest.1] at hentry
  · split_ifs at hchannel with hsent
    · by_cases hi : i = addr.modem
      · subst hi
        rw [hchannel.1] at hmem
        rcases List.mem_append.mp hmem with hold | hnew
        · exact .inl hold
        · -- the worker that was found is still the one that takes from the channel
          rw [List.mem_singleton.mp hnew]
          have hcurrent : s.current addr.modem = addr := by rw [World.current, ← hsent.2]
          rw [hcurrent]
          exact .inr hfor
      · rw [hchannel.2 i hi] at hmem
        exact .inl hmem
    · rw [hchannel i] at hmem
      exact .inl hmem

theorem routeInv_work {i : ι} {e : Modem.Call} {a : e.Ans} {m : SupervisorWorld Sim}
    (hinv : RouteInv h s past q) (hallow : identityProtocol.allows (q (.modem i .supervisor)).2 e)
    (hexec : (s.modems i).exec Sim.exec .supervisor ch (.work e) a = some m)
    (hshared : (s.setModem i m).shared ch i (.work e) a = some s') :
    RouteInv h s' (.call (.modem i .supervisor) (.modem (.work e)) a s :: past)
      (Function.update q (.modem i .supervisor) ((q (.modem i .supervisor)).1,
        identityProtocol.next (q (.modem i .supervisor)).2 e a)) := by
  obtain ⟨hchannel, hother⟩ := channel_work hexec hshared
  have hcurrent : ∀ j, s'.current j = s.current j := by
    refine current_of_shared ?_ hexec hshared
    rintro ⟨⟩
  have hstay : registersIn (.call (.modem i .supervisor) (.modem (.work e)) a s :
      System.Occurrence (Thread ι) (World ι) (Call ι) Call.Ans (Outer ι)) = none →
      (∀ iccid, e ≠ .register iccid) →
      RouteInv h s' (.call (.modem i .supervisor) (.modem (.work e)) a s :: past) q := by
    intro hx he
    have hworkers : ∀ iccid a, s'.workers iccid = some a → s.workers iccid = some a := by
      refine fun iccid a hentry => workers_of_shared ?_ hshared iccid a hentry
      rintro iccid ⟨⟩
      exact he iccid rfl
    refine hinv.step hx hworkers (fun _ _ hy => .inl hy)
      (fun j => .inl ⟨hcurrent j, fun task hmem => ?_, rfl⟩) ?_
    · by_cases hj : j = i
      · subst hj
        rw [hchannel]
        exact .inl (List.mem_append_right _ hmem)
      · rw [hother j hj] at hmem
        exact .inl hmem
    · rintro j it s₀ heq
      cases heq
      refine ⟨rfl, ?_⟩
      rw [hchannel]
      exact List.mem_append_left _ List.mem_cons_self
  have hself : Function.update q (.modem i .supervisor) ((q (.modem i .supervisor)).1,
      (q (.modem i .supervisor)).2) = q := Function.update_eq_self _ q
  cases e with
  | register iccid =>
    refine hinv.register hallow ?_ hcurrent fun j => ?_
    · have hattempt : m.attempt = (s.modems i).attempt := by
        refine attempt_of_exec ?_ hexec
        rintro ⟨⟩
      cases hshared
      simp only [World.current, World.setModem, Function.update_self, hattempt]
    · by_cases hj : j = i
      · subst hj
        exact hchannel.symm
      · exact hother j hj
  | _ => exact hself.symm ▸ hstay rfl (by rintro iccid ⟨⟩)

theorem routeInv_newWorker {i : ι} {a : Unit} {m : SupervisorWorld Sim}
    (hinv : RouteInv h s past q)
    (hexec : (s.modems i).exec Sim.exec .supervisor ch .newWorker a = some m)
    (hshared : (s.setModem i m).shared ch i .newWorker a = some s') :
    RouteInv h s' (.call (.modem i .supervisor) (.modem .newWorker) a s :: past)
      (Function.update q (.modem i .supervisor) ((q (.modem i .supervisor)).1, none)) := by
  cases hexec
  cases hshared
  refine hinv.step rfl (fun _ _ hentry => hentry) ?_ (fun j => ?_) (by rintro j it s₀ ⟨⟩)
  · intro t y hy
    rw [Function.update_of_ne (by simp)] at hy
    exact .inl hy
  · by_cases hj : j = i
    · subst hj
      right
      rw [channel_setModem_self]
      simp only [World.setModem, Function.update_self]
      exact ⟨Nat.lt_succ_self _, rfl⟩
    · left
      rw [channel_setModem_of_ne hj, Function.update_of_ne (by simpa using hj)]
      refine ⟨?_, fun _ hmem => .inl hmem, rfl⟩
      simp only [World.current, World.setModem, Function.update_of_ne hj]

/-- The other calls of a supervisor, and those of a watchdog. -/
theorem routeInv_other {i : ι} {u : SupervisorThread} {c : SupervisorCall} {a : c.Ans}
    {m : SupervisorWorld Sim} (hinv : RouteInv h s past q)
    (hc : ∀ e, c = .work e → e.ofWatchdog) (hnew : c ≠ .newWorker)
    (hexec : (s.modems i).exec Sim.exec u ch c a = some m)
    (hshared : (s.setModem i m).shared ch i c a = some s') :
    RouteInv h s' (.call (.modem i u) (.modem c) a s :: past) q := by
  have hregister : ∀ iccid, c ≠ .work (.register iccid) := by
    rintro iccid rfl
    cases hc _ rfl
  have hselect : c ≠ .work .select := by
    rintro rfl
    cases hc _ rfl
  have hworkers : ∀ iccid a, s'.workers iccid = some a → s.workers iccid = some a :=
    fun _ _ hentry => workers_of_shared hregister hshared _ _ hentry
  refine hinv.step ?_ hworkers (fun _ _ hy => .inl hy)
    (fun j => .inl ⟨current_of_shared hnew hexec hshared j, fun task hmem => ?_, rfl⟩) ?_
  · unfold registersIn
    split
    · rename_i heq
      cases heq
      exact absurd rfl (hregister _)
    · rfl
  · rw [channel_other hc hnew hexec hshared] at hmem
    exact .inl hmem
  · intro j it s₀ heq
    cases heq
    exact absurd rfl hselect

/-! ### Over whole runs -/

theorem routeInv_modem {i : ι} {u : SupervisorThread} {c : SupervisorCall} {a : c.Ans}
    {m : SupervisorWorld Sim} (hinv : RouteInv h s past q)
    (hallow : (supervisedProtocols identityProtocol (fun _ => none) u).allows
      (q (.modem i u)).2 c)
    (hexec : (s.modems i).exec Sim.exec u ch c a = some m)
    (hshared : (s.setModem i m).shared ch i c a = some s') :
    RouteInv h s' (.call (.modem i u) (.modem c) a s :: past)
      (Function.update q (.modem i u) ((q (.modem i u)).1,
        (supervisedProtocols identityProtocol (fun _ => none) u).next
          (q (.modem i u)).2 c a)) := by
  have hself : Function.update q (.modem i u) ((q (.modem i u)).1, (q (.modem i u)).2) = q :=
    Function.update_eq_self _ q
  cases u with
  | watchdog n =>
    rw [show (supervisedProtocols identityProtocol (fun _ => none) (.watchdog n)).next
      (q (.modem i (.watchdog n))).2 c a = (q (.modem i (.watchdog n))).2 from rfl, hself]
    refine routeInv_other hinv ?_ ?_ hexec hshared
    · rintro e rfl
      exact hallow
    · rintro rfl
      cases hallow
  | supervisor =>
    cases c with
    | work e => exact routeInv_work hinv hallow hexec hshared
    | newWorker => exact routeInv_newWorker hinv hexec hshared
    | ctxErr | backOff =>
      exact hself.symm ▸ routeInv_other hinv (by rintro e ⟨⟩) (by rintro ⟨⟩) hexec hshared

theorem routeInv_call {t : Thread ι} {c : Call ι} {a : c.Ans} (hinv : RouteInv h s past q)
    (hallow : (protocols (foundProtocol ι h) (fun _ => identityProtocol)
      (fun _ => none) t).allows (q t) c)
    (hexec : s.exec w t ch c a = some s') :
    RouteInv h s' (.call t c a s :: past) (Function.update q t
      ((protocols (foundProtocol ι h) (fun _ => identityProtocol) (fun _ => none) t).next
        (q t) c a)) := by
  cases c with
  | tunnel c =>
    obtain ⟨u, tunnel, rfl, -, rfl⟩ := exec_tunnel hexec
    have hself : Function.update q (.tunnel u) ((q (.tunnel u)).1, (q (.tunnel u)).2) = q :=
      Function.update_eq_self _ q
    exact hself.symm ▸ routeInv_tunnel hinv
  | modem c =>
    obtain ⟨i, u, m, rfl, hm, hshared⟩ := exec_modem hexec
    exact routeInv_modem hinv hallow hm hshared
  | lookup iccid =>
    cases t with
    | modem => exact hallow.elim
    | tunnel u => exact routeInv_lookup hinv hexec
  | send addr task =>
    cases t with
    | modem => exact hallow.elim
    | tunnel u =>
      have hself : Function.update q (.tunnel u) ((q (.tunnel u)).1, (q (.tunnel u)).2) = q :=
        Function.update_eq_self _ q
      exact hself.symm ▸ routeInv_send hinv hallow hexec

theorem routeInv_outer {v : Outer ι} (hinv : RouteInv h s past q) (hstep : v.step s = some s') :
    RouteInv h s' (.env v s :: past) q := by
  have hchannel := channel_outer hstep
  have hrest : s'.workers = s.workers ∧ ∀ i, s'.current i = s.current i := by
    cases v with
    | arrive j slot pdu =>
      obtain ⟨-, hs⟩ := Option.ite_none_right_eq_some.mp hstep
      cases hs
      exact ⟨rfl, current_setWorker _ _⟩
    | cancel | tick =>
      cases hstep
      exact ⟨rfl, fun _ => rfl⟩
    | requestReset iccid =>
      rcases eq_of_requestReset hstep with rfl | ⟨j, rfl⟩
      · exact ⟨rfl, fun _ => rfl⟩
      · exact ⟨rfl, current_setWorker _ _⟩
  refine hinv.step rfl ?_ (fun _ _ hy => .inl hy)
    (fun i => .inl ⟨hrest.2 i, fun task hmem => ?_, rfl⟩)
    (by rintro i it s₀ ⟨⟩)
  · intro iccid a hentry
    rwa [hrest.1] at hentry
  · rw [hchannel] at hmem
    exact .inl hmem

end Steps

section Runs

variable [DecidableEq ι] (h : Router.Host) (cfg : ManagerConfig) (w : ι → Worker)

/-- All that can happen keeps `RouteInv`. -/
def routeProof :
    GatewayProof h cfg w (foundProtocol ι h) (fun _ => identityProtocol) (fun _ => none) where
  tunnelHead _ _ _ := True
  tunnel_obeys t l q _ := by
    refine (Prog.interpret_obeys (tunnelCall_obeys_found h) _ q).mono fun res q _ => ?_
    cases res with
    | inl l => trivial
    | inr r => trivial
  run i := identityRun h.toModem (wired cfg (w i))
  run_reset _ _ _ _ := rfl
  inv := RouteInv h
  call_inv := routeInv_call
  outer_inv := routeInv_outer

variable {h cfg w} {sims : ι → Sim} {table₀ : Buffer.Table}

/-- **A task is executed on the SIM that it names.**  In any run of the gateway, a task that a
worker takes to execute it names in its payload the ICCID under which this worker has registered
before; and a worker registers under one ICCID only. -/
theorem task_for_sim {c : RecordedConfig ι}
    (hreach : (gatewaySystem h cfg w).recorded.Reach
      ((gatewaySystem h cfg w).recorded.start ⟨.new sims table₀, []⟩ entry) c)
    {i : ι} {it : InboundTask} {s : World ι} {earlier : History ι}
    (htakes : takes i it s :: earlier <:+ c.state.history) :
    ∃ iccid, Router.extractICCID h it.task = .ok iccid ∧
      RegisteredAs earlier (s.current i) iccid ∧
      ∀ iccid', RegisteredAs c.state.history (s.current i) iccid' → iccid' = iccid := by
  obtain ⟨q, hinv, -⟩ := (routeProof h cfg w).reach (none, none) (routeInv_new sims table₀)
    (fun _ => trivial) (fun _ => rfl) hreach
  obtain ⟨iccid, hiccid, hreg⟩ := hinv.taken i it s earlier htakes
  refine ⟨iccid, hiccid, hreg, fun iccid' hreg' => hinv.unique _ _ _ hreg' ?_⟩
  obtain ⟨s₀, hmem, hs₀⟩ := hreg
  exact ⟨s₀, htakes.subset (List.mem_cons_of_mem _ hmem), hs₀⟩

end Runs

/-- The task of `dispatchMoves` is taken by the worker that has registered under its ICCID. -/
theorem task_for_sim_wipe :
    ∃ c, wipeGateway.Reach wipeStart c ∧ ∃ s earlier,
      takes () ⟨wipeTask, 0⟩ s :: earlier <:+ c.state.history ∧
      ∃ iccid, Router.extractICCID wipeHost wipeTask = .ok iccid ∧
        RegisteredAs earlier (s.current ()) iccid ∧
        ∀ iccid', RegisteredAs c.state.history (s.current ()) iccid' → iccid' = iccid := by
  have hplay : (wipeGateway.play wipeStart (dispatchMoves wipeTask ++
      callsWith (taskAnswer wipeTask) 1 (.modem () .supervisor))).map (fun c =>
        c.state.history.head?.bind takenIn) = some (some ((), ⟨wipeTask, 0⟩)) := by
    decide +kernel
  obtain ⟨c, hc, hres⟩ := Option.map_eq_some_iff.mp hplay
  obtain ⟨x, hx, htaken⟩ := Option.bind_eq_some_iff.mp hres
  obtain ⟨s, rfl⟩ := eq_takes_of_takenIn htaken
  obtain ⟨earlier, hhistory⟩ := List.head?_eq_some_iff.mp hx
  have hsuffix : takes () ⟨wipeTask, 0⟩ s :: earlier <:+ c.state.history := ⟨[], hhistory.symm⟩
  have hreach := System.reach_of_play hc
  exact ⟨c, hreach, s, earlier, hsuffix, task_for_sim hreach hsuffix⟩

end SmsGate.Gateway
