import SmsGate.Gateway.System
import SmsGate.Modem.Equiv.Supervised
import SmsGate.Prog.History

/-!
# Proofs about the recorded runs of a gateway

The goroutines of the tunnel keep to one protocol, `Run` of every worker keeps to another, and of
the watchdogs it is enough to know which calls they make.  A `GatewayProof` has what is to be shown
for such protocols and an invariant, block by block and call by call; `GatewayProof.reach` is what
it gives for every run.
-/

namespace SmsGate.Gateway

open Tunnel Modem

/-- What has happened in a run of a gateway, the newest first. -/
abbrev History (ι : Type) :=
  List (System.Occurrence (Thread ι) (World ι) (Call ι) Call.Ans (Outer ι))

/-- The configurations of a gateway that is recorded. -/
abbrev RecordedConfig (ι : Type) :=
  System.Config (Thread ι) (System.Recorded (Thread ι) (World ι) (Call ι) Call.Ans (Outer ι))
    (Call ι) Call.Ans Label Unit

variable {ι QT QM : Type}

/-! ### What a call changes -/

section Effect

variable {w : ι → Worker} {t : Thread ι} {ch : Chance} {s s' : World ι}

/-- Two states do not differ in the buffer, in the outbox and on the SIMs. -/
structure SameMail (s s' : World ι) : Prop where
  table : s'.table = s.table
  outbox : s'.tunnel.outbox = s.tunnel.outbox
  sim : ∀ i, s'.sim i = s.sim i

theorem SameMail.refl (s : World ι) : SameMail s s := ⟨rfl, rfl, fun _ => rfl⟩

theorem push_eq (s : World ι) (m : Outbound) : (s.push m).modems = s.modems ∧
    (s.push m).table = s.table ∧
    ∀ x ∈ (s.push m).tunnel.outbox, x ∈ s.tunnel.outbox ∨ x ∈ [m] := by
  unfold World.push
  split_ifs
  · exact ⟨rfl, rfl, fun x hx => List.mem_append.mp hx⟩
  · exact ⟨rfl, rfl, fun x hx => .inl hx⟩

/-- The events that a call of a worker pushes. -/
def pushed : SupervisorCall → List Outbound
  | .work (.event e) => [.event e]
  | .work (.ack _ ack) => [.taskAck ack]
  | _ => []

/-- The call is an insert, and has done this to the buffer. -/
def Inserts (ch : Chance) (table table' : Buffer.Table) (m : Buffer.Message)
    (a : Except Buffer.InsertErr (ℤ × Bool)) : Prop :=
  a = (Buffer.insert ch.fault ch.sec m table).1 ∧
    table' = (Buffer.insert ch.fault ch.sec m table).2

/-- What a call of a worker does to the buffer. -/
def TableAfter (ch : Chance) (table table' : Buffer.Table) : (c : SupervisorCall) → c.Ans → Prop
  | .work (.insert m), a => Inserts ch table table' m a
  | _, _ => table' = table

/-- What a call of a worker does to what is shared. -/
theorem shared_eq {i : ι} {c : SupervisorCall} {a : c.Ans}
    (hshared : s.shared ch i c a = some s') :
    s'.modems = s.modems ∧ TableAfter ch s.table s'.table c a ∧
      ∀ x ∈ s'.tunnel.outbox, x ∈ s.tunnel.outbox ∨ x ∈ pushed c := by
  cases c with
  | work e =>
    cases e with
    | insert m =>
      obtain ⟨ha, hs⟩ := Option.ite_none_right_eq_some.mp hshared
      cases hs
      exact ⟨rfl, ⟨ha, rfl⟩, fun x hx => .inl hx⟩
    | event e =>
      cases hshared
      exact push_eq s _
    | ack ackFn ack =>
      cases hshared
      exact push_eq s _
    | _ =>
      cases hshared
      exact ⟨rfl, rfl, fun x hx => .inl hx⟩
  | _ =>
    cases hshared
    exact ⟨rfl, rfl, fun x hx => .inl hx⟩

variable [DecidableEq ι]

theorem exec_tunnel {c : Tunnel.Call} {a : c.Ans} (hexec : s.exec w t ch (.tunnel c) a = some s') :
    ∃ u tunnel, t = .tunnel u ∧ s.tunnel.exec u ch.ms c a = some tunnel ∧
      s' = { s with tunnel } := by
  cases t with
  | modem => cases hexec
  | tunnel u =>
    obtain ⟨tunnel, htunnel, rfl⟩ := Option.map_eq_some_iff.mp hexec
    exact ⟨u, tunnel, rfl, htunnel, rfl⟩

theorem exec_modem {c : SupervisorCall} {a : c.Ans} (hexec : s.exec w t ch (.modem c) a = some s') :
    ∃ i u m, t = .modem i u ∧ (s.modems i).exec Sim.exec u ch c a = some m ∧
      (s.setModem i m).shared ch i c a = some s' := by
  cases t with
  | tunnel => cases hexec
  | modem i u =>
    obtain ⟨m, hm, hshared⟩ := Option.bind_eq_some_iff.mp hexec
    exact ⟨i, u, m, rfl, hm, hshared⟩

theorem sim_setWorker (i : ι) (m : Modem.World Sim) (j : ι) :
    (s.setWorker i m).sim j = if j = i then m.outside else s.sim j := by
  split_ifs with hj
  · subst hj
    simp only [World.sim, World.setWorker, World.setModem, Function.update_self]
  · simp only [World.sim, World.setWorker, World.setModem, Function.update_of_ne hj]

theorem sameMail_setWorker {i : ι} {m : Modem.World Sim} (hm : m.outside = s.sim i) :
    SameMail s (s.setWorker i m) where
  table := rfl
  outbox := rfl
  sim j := by
    rw [sim_setWorker]
    split_ifs with hj
    · rw [hm, hj]
    · rfl

theorem sameMail_lookup {iccid : List UInt8} {a : Option (Address ι)}
    (hexec : s.exec w t ch (.lookup iccid) a = some s') : SameMail s s' := by
  obtain ⟨-, hs⟩ := Option.ite_none_right_eq_some.mp hexec
  cases hs
  cases a with
  | none => exact .refl _
  | some a =>
    unfold World.found
    dsimp only
    split_ifs
    · exact sameMail_setWorker rfl
    · exact .refl _

theorem sameMail_send {a : Address ι} {task : Task} {sent : Bool}
    (hexec : s.exec w t ch (.send a task) sent = some s') : SameMail s s' := by
  simp only [World.exec, World.send] at hexec
  split_ifs at hexec
  · obtain ⟨m, hm, rfl⟩ := Option.map_eq_some_iff.mp hexec
    exact sameMail_setWorker (effect_of_outer hm).outside
  · cases hexec
    exact .refl _

/-- A request for a reset reaches the worker, or one whose run is over. -/
theorem eq_of_requestReset {iccid : List UInt8}
    (hstep : (Outer.requestReset iccid).step s = some s') :
    s' = s ∨ ∃ i, s' = s.setWorker i { (s.modems i).world with resetCh := true } := by
  simp only [Outer.step] at hstep
  cases hfound : s.workers iccid with
  | none =>
    rw [hfound] at hstep
    cases hstep
  | some a =>
    rw [hfound] at hstep
    cases hstep
    split_ifs
    · exact .inr ⟨a.modem, rfl⟩
    · exact .inl rfl

/-- A step outside in which no message arrives. -/
theorem sameMail_outer {v : Outer ι} (hv : ∀ i slot pdu, v ≠ .arrive i slot pdu)
    (hstep : v.step s = some s') : SameMail s s' := by
  cases v with
  | arrive i slot pdu => exact absurd rfl (hv i slot pdu)
  | cancel | tick =>
    cases hstep
    exact ⟨rfl, rfl, fun _ => rfl⟩
  | requestReset iccid =>
    rcases eq_of_requestReset hstep with rfl | ⟨i, rfl⟩
    · exact .refl _
    · exact sameMail_setWorker rfl

/-- What a call of a worker does to its SIM. -/
theorem sim_of_exec {m m' : SupervisorWorld Sim} {e : Modem.Call} {a : e.Ans}
    (hexec : m.exec Sim.exec .supervisor ch (.work e) a = some m') :
    m.world.outside.exec ch e a = some m'.world.outside := by
  obtain ⟨m₁, hm, rfl⟩ := Option.map_eq_some_iff.mp hexec
  have hsim := outside_of_exec hm
  split_ifs at hsim with hdelegated
  · exact hsim
  · rw [← hsim]
    cases e with
    | execute => cases hdelegated rfl
    | _ => rfl

/-- What the supervisor's own calls, and those of the watchdogs, do. -/
theorem exec_other_cases {u : SupervisorThread} {m m' : SupervisorWorld Sim} {c : SupervisorCall}
    {a : c.Ans} (hc : ∀ e, c = .work e → e.ofWatchdog)
    (hexec : m.exec Sim.exec u ch c a = some m') :
    m' = m ∨ (c = .newWorker ∧ m' = ⟨m.world.restart, m.attempt + 1⟩) ∨
      ∃ (e : Modem.Call) (a : e.Ans), e.ofWatchdog ∧
        m.world.exec Sim.exec ch e a = some m'.world := by
  cases c with
  | newWorker =>
    cases hexec
    exact .inr (.inl ⟨rfl, rfl⟩)
  | ctxErr | backOff =>
    obtain ⟨-, hs⟩ := Option.ite_none_right_eq_some.mp hexec
    cases hs
    exact .inl rfl
  | work e =>
    cases u with
    | supervisor =>
      obtain ⟨m₁, hm, rfl⟩ := Option.map_eq_some_iff.mp hexec
      exact .inr (.inr ⟨e, a, hc e rfl, hm⟩)
    | watchdog n =>
      simp only [SupervisorWorld.exec] at hexec
      split_ifs at hexec
      · cases hexec
        exact .inl rfl
      · obtain ⟨m₁, hm, rfl⟩ := Option.map_eq_some_iff.mp hexec
        exact .inr (.inr ⟨e, a, hc e rfl, hm⟩)

/-- They leave the SIM alone. -/
theorem sim_of_exec_other {u : SupervisorThread} {m m' : SupervisorWorld Sim} {c : SupervisorCall}
    {a : c.Ans} (hc : ∀ e, c = .work e → e.ofWatchdog)
    (hexec : m.exec Sim.exec u ch c a = some m') : m'.world.outside = m.world.outside := by
  rcases exec_other_cases hc hexec with rfl | ⟨-, rfl⟩ | ⟨e, a, he, hm⟩
  · rfl
  · rfl
  · have hsim := outside_of_exec hm
    split_ifs at hsim with hdelegated
    · cases e with
      | openPort | execute | executeSend | insert | allow | newUUID | sleep | registerLimiter =>
        cases he
      | _ => cases hdelegated
    · exact (Option.some.inj hsim).symm

end Effect

/-! ### Proofs by protocols -/

/-- What each goroutine keeps to. -/
def protocols (PT : Protocol (Call ι) Call.Ans QT)
    (PM : ι → Protocol Modem.Call Modem.Call.Ans QM) (reset : QM → QM) :
    Thread ι → Protocol (Call ι) Call.Ans (QT × QM)
  | .tunnel _ =>
    { allows := fun q c => PT.allows q.1 c
      next := fun q c a => (PT.next q.1 c a, q.2) }
  | .modem i t =>
    { allows := fun q c =>
        match c with
        | .modem c => (supervisedProtocols (PM i) reset t).allows q.2 c
        | _ => False
      next := fun q c a =>
        match c, a with
        | .modem c, a => (q.1, (supervisedProtocols (PM i) reset t).next q.2 c a)
        | _, _ => q }

/-- A protocol of the tunnel, for which it does not matter how tasks are dispatched. -/
def tunnelProtocol (ι : Type) (P : Protocol Tunnel.Call Tunnel.Call.Ans QT) :
    Protocol (Call ι) Call.Ans QT where
  allows q c :=
    match c with
    | .tunnel c => P.allows q c
    | .modem _ => False
    | _ => True
  next q c a :=
    match c, a with
    | .tunnel c, a => P.next q c a
    | _, _ => q

theorem dispatch_obeys {P : Protocol Tunnel.Call Tunnel.Call.Ans QT} (h : Router.Host)
    (task : Task) (q : QT) :
    (dispatch h task).Obeys (tunnelProtocol ι P) q fun _ q' => q' = q := by
  unfold dispatch
  cases Router.extractICCID h task with
  | error text => exact rfl
  | ok iccid =>
    refine Prog.perform_bind_obeys trivial fun (found : Option (Address ι)) => ?_
    cases found with
    | none => exact rfl
    | some w =>
      refine Prog.perform_bind_obeys trivial fun (sent : Bool) => ?_
      cases sent with
      | true => exact rfl
      | false => exact rfl

/-- The code of the tunnel keeps to its protocol among the calls of the gateway. -/
theorem interpret_obeys {P : Protocol Tunnel.Call Tunnel.Call.Ans QT} {h : Router.Host} {α : Type}
    {p : Tunnel.Io α} {q : QT} {Φ : α → QT → Prop} (hp : p.Obeys P q Φ)
    (hroute : ∀ q task err, P.next q (.route task) err = q) :
    (p.interpret (tunnelCall h)).Obeys (tunnelProtocol ι P) q Φ := by
  refine hp.interpret fun q c hallow => ?_
  cases c with
  | route task =>
    simp only [hroute]
    exact dispatch_obeys h task q
  | _ => exact ⟨hallow, fun _ => rfl⟩

/-- The goroutines keep to their protocols, and an invariant is kept by all that can happen. -/
structure GatewayProof [DecidableEq ι] (h : Router.Host) (cfg : ManagerConfig) (w : ι → Worker)
    (PT : Protocol (Call ι) Call.Ans QT) (PM : ι → Protocol Modem.Call Modem.Call.Ans QM)
    (reset : QM → QM) where
  /-- What holds where a block of the tunnel starts. -/
  tunnelHead : Tunnel.Thread → Tunnel.Label → QT → Prop
  tunnel_obeys : ∀ t l q, tunnelHead t l q →
    ((Tunnel.block cfg l).interpret (tunnelCall h)).Obeys PT q
      (Sum.elim (tunnelHead t) fun _ _ => True)
  run : ∀ i, RunProof h.toModem (wired cfg (w i)) (PM i)
  run_reset : ∀ i st q, (run i).final st q → (run i).head .init (reset q)
  /-- The invariant. -/
  inv : World ι → History ι → (Thread ι → QT × QM) → Prop
  call_inv : ∀ {t ch s past q c a s'}, inv s past q → (protocols PT PM reset t).allows (q t) c →
    s.exec w t ch c a = some s' →
    inv s' (.call t c a s :: past) (Function.update q t ((protocols PT PM reset t).next (q t) c a))
  outer_inv : ∀ {v s past q s'}, inv s past q → Outer.step s v = some s' →
    inv s' (.env v s :: past) q

namespace GatewayProof

variable [DecidableEq ι] {h : Router.Host} {cfg : ManagerConfig} {w : ι → Worker}
  {PT : Protocol (Call ι) Call.Ans QT} {PM : ι → Protocol Modem.Call Modem.Call.Ans QM}
  {reset : QM → QM}

/-- Where the blocks start. -/
def head (X : GatewayProof h cfg w PT PM reset) : Thread ι → Label → QT × QM → Prop
  | .tunnel t, .tunnel l, q => X.tunnelHead t l q.1
  | .modem i t, .modem l, q => (X.run i).supervisedHead reset t l q.2
  | _, _, _ => False

theorem block_obeys (X : GatewayProof h cfg w PT PM reset) (t : Thread ι) (l : Label)
    (q : QT × QM) (hq : X.head t l q) :
    (block h cfg w t l).Obeys (protocols PT PM reset t) q
      (Sum.elim (X.head t) fun _ _ => True) := by
  cases t with
  | tunnel t =>
    cases l with
    | modem l => exact hq.elim
    | tunnel l =>
      have hcode : ∀ {α : Type} {p : Io ι α} {q : QT × QM} {Φ : α → QT → Prop},
          p.Obeys PT q.1 Φ → p.Obeys (protocols PT PM reset (.tunnel t)) q
            fun a q => Φ a q.1 := by
        intro α p q Φ hp
        induction p generalizing q with
        | ret a => exact hp
        | call c k ih => exact ⟨hp.1, fun a => ih a (hp.2 a)⟩
      refine (hcode (X.tunnel_obeys t l q.1 hq)).bind fun res q hres => ?_
      cases res with
      | inl l => exact hres
      | inr r => trivial
  | modem i t =>
    cases l with
    | tunnel l => exact hq.elim
    | modem l =>
      have hcode : ∀ {α : Type} {p : Supervision α} {q : QT × QM} {Φ : α → QM → Prop},
          p.Obeys (supervisedProtocols (PM i) reset t) q.2 Φ →
            (p.embed .modem fun _ a => a).Obeys (protocols PT PM reset (.modem i t)) q
              fun a q => Φ a q.2 := by
        intro α p q Φ hp
        induction p generalizing q with
        | ret a => exact hp
        | call c k ih => exact ⟨hp.1, fun a => ih a (hp.2 a)⟩
      have hblock := (X.run i).supervisorBlock_obeys reset (X.run_reset i) t l q.2 hq
      refine (hcode hblock).bind fun res q hres => ?_
      cases res with
      | inl l => exact hres
      | inr r => trivial

/-- The proof outline. -/
def outline (X : GatewayProof h cfg w PT PM reset) :
    System.Outline (gatewaySystem h cfg w).recorded (protocols PT PM reset) where
  head := X.head
  final _ _ _ := True
  inv s q := X.inv s.state s.history q
  block_obeys := X.block_obeys
  call_inv t ch s q c a s' hinv hallow hexec := by
    obtain ⟨s₁, hcall, rfl⟩ := System.recorded_exec_iff.mp hexec
    exact X.call_inv hinv hallow hcall
  env_inv v s q s' hinv hstep := by
    obtain ⟨s₁, houter, rfl⟩ := System.recorded_env_iff.mp hstep
    exact X.outer_inv hinv houter
  crash_inv t s q l s' hinv hcrash := nomatch hcrash

/-- The outline of the code alone. -/
def code (X : GatewayProof h cfg w PT PM reset) :
    System.Outline (gatewaySystem h cfg w) (protocols PT PM reset) where
  head := X.head
  final _ _ _ := True
  inv _ _ := True
  block_obeys := X.block_obeys
  call_inv _ _ _ _ _ _ _ _ _ _ := trivial
  env_inv _ _ _ _ _ _ := trivial
  crash_inv _ _ _ _ _ _ hcrash := nomatch hcrash

/-- The invariant holds along every run, and every goroutine is where its protocol says it is. -/
theorem reach (X : GatewayProof h cfg w PT PM reset) {s : World ι} (q₀ : QT × QM)
    (hinv : X.inv s [] fun _ => q₀) (htunnel : ∀ t, X.tunnelHead t (Tunnel.entry t) q₀.1)
    (hrun : ∀ i, (X.run i).head .init q₀.2) {c : RecordedConfig ι}
    (hreach : (gatewaySystem h cfg w).recorded.Reach
      ((gatewaySystem h cfg w).recorded.start ⟨s, []⟩ entry) c) :
    ∃ q, X.inv c.state.state c.state.history q ∧ ∀ t, X.outline.Follows t (c.threads t) (q t) := by
  have hstart : X.outline.Holds ((gatewaySystem h cfg w).recorded.start ⟨s, []⟩ entry) := by
    refine X.outline.holds_start (q := fun _ => q₀) hinv fun t => ?_
    cases t with
    | tunnel t => exact htunnel t
    | modem i t =>
      cases t with
      | supervisor => exact hrun i
      | watchdog n => exact rfl
  exact X.outline.reach hstart hreach

end GatewayProof

/-! ### What a worker has done -/

section Workers

variable [DecidableEq ι] {h : Router.Host} {cfg : ManagerConfig} {w : ι → Worker}

/-- The tunnel may do anything. -/
abbrev anyTunnel (ι : Type) : Protocol (Call ι) Call.Ans Unit :=
  tunnelProtocol ι (.only fun _ => True)

/-- A proof about the code only. -/
def GatewayProof.ofRuns {PM : ι → Protocol Modem.Call Modem.Call.Ans QM} {reset : QM → QM}
    (run : ∀ i, RunProof h.toModem (wired cfg (w i)) (PM i))
    (run_reset : ∀ i st q, (run i).final st q → (run i).head .init (reset q)) :
    GatewayProof h cfg w (anyTunnel ι) PM reset where
  tunnelHead _ _ _ := True
  tunnel_obeys t l q _ := by
    have hcall : ∀ q c, (tunnelCall h c).Obeys (anyTunnel ι) q fun _ _ => True := by
      intro q c
      cases c with
      | route task => exact (dispatch_obeys h task q).mono fun _ _ _ => trivial
      | _ => exact ⟨trivial, fun _ => trivial⟩
    refine (Prog.interpret_obeys hcall (Tunnel.block cfg l) q).mono fun res q _ => ?_
    cases res with
    | inl l => trivial
    | inr r => trivial
  run := run
  run_reset := run_reset
  inv _ _ _ := True
  call_inv _ _ _ := trivial
  outer_inv _ _ := trivial

/-- What the calls of the workers of a modem have made of a state, one worker after the other. -/
def followWorker {Q : Type} (next : Q → (e : Modem.Call) → e.Ans → Q) (q₀ : Q) (i : ι) :
    History ι → Q
  | [] => q₀
  | .call t (.modem (.work e)) a _ :: past =>
    if t = .modem i .supervisor then next (followWorker next q₀ i past) e a
    else followWorker next q₀ i past
  | _ :: past => followWorker next q₀ i past

theorem follow_eq_followWorker (PT : Protocol (Call ι) Call.Ans QT)
    (PM : ι → Protocol Modem.Call Modem.Call.Ans QM) (i : ι) (q₀ : QT × QM) (past : History ι) :
    (System.follow (protocols PT PM id (.modem i .supervisor)) (.modem i .supervisor) q₀ past).2 =
      followWorker (PM i).next q₀.2 i past := by
  induction past with
  | nil => rfl
  | cons x past ih =>
    cases x with
    | env v s => exact ih
    | crash t s => exact ih
    | call t c a s =>
      by_cases ht : t = .modem i .supervisor
      · subst ht
        rw [System.follow_call_self]
        cases c with
        | modem c =>
          cases c with
          | work e =>
            rw [followWorker, if_pos rfl, ← ih]
            rfl
          | _ => exact ih
        | _ => exact ih
      · rw [System.follow_call_of_ne ht, ih]
        cases c with
        | modem c =>
          cases c with
          | work e => rw [followWorker, if_neg ht]
          | _ => rfl
        | _ => rfl

/-- Over every run, each call of a worker was allowed when it was made. -/
theorem allows_of_reach {P : Protocol Modem.Call Modem.Call.Ans QM} {q₀ : QM}
    (run : ∀ i, RunProof h.toModem (wired cfg (w i)) P)
    (run_reset : ∀ i st q, (run i).final st q → (run i).head .init q)
    (hhead : ∀ i, (run i).head .init q₀) {s₀ : World ι} {c : RecordedConfig ι}
    (hreach : (gatewaySystem h cfg w).recorded.Reach
      ((gatewaySystem h cfg w).recorded.start ⟨s₀, []⟩ entry) c)
    {i : ι} {e : Modem.Call} {a : e.Ans} {s : World ι} {earlier : History ι}
    (hcall : .call (.modem i .supervisor) (.modem (.work e)) a s :: earlier <:+ c.state.history) :
    P.allows (followWorker P.next q₀ i earlier) e := by
  have hstart : ∀ t, (GatewayProof.ofRuns run run_reset).head t (entry t) ((), q₀) := by
    intro t
    cases t with
    | tunnel t => trivial
    | modem i t =>
      cases t with
      | supervisor => exact hhead i
      | watchdog n => exact rfl
  obtain ⟨htraced, -⟩ := (GatewayProof.ofRuns run run_reset).code.reach_traced
    (fun _ _ => rfl) trivial hstart hreach
  obtain ⟨later, hhistory⟩ := hcall
  have haccepted := htraced.accepted (.modem i .supervisor)
  rw [← hhistory] at haccepted
  have hallow := haccepted.of_append.1 rfl
  have hfollow := follow_eq_followWorker (anyTunnel ι) (fun _ => P) i ((), q₀) earlier
  rw [← hfollow]
  exact hallow

end Workers

/-! ### For runs on fixed inputs -/

/-- The moves of a run with one modem. -/
abbrev OneModemMove := System.Move (Thread Unit) (Call Unit) Call.Ans Chance (Outer Unit)

/-- Answers to every call: those to the tunnel, to the worker, and to lookups. -/
def answerWith (tunnel : (c : Tunnel.Call) → c.Ans) (work : (e : Modem.Call) → e.Ans)
    (found : Option (Address Unit)) : (c : Call Unit) → c.Ans
  | .tunnel c => tunnel c
  | .modem (.work e) => work e
  | .modem .newWorker => ()
  | .modem .ctxErr => false
  | .modem (.backOff _) => true
  | .lookup _ => found
  | .send _ _ => true

/-- A number of calls of a goroutine. -/
def callsWith (answer : (c : Call Unit) → c.Ans) (n : ℕ) (t : Thread Unit) : List OneModemMove :=
  List.replicate n (.call t ⟨fun _ => true, .none, 0, 0⟩ answer)

/-- The worker starts, and enters its main loop. -/
def workerStart (answer : (c : Call Unit) → c.Ans) : List OneModemMove :=
  .jump (.modem () .supervisor) :: callsWith answer 16 (.modem () .supervisor) ++
    [.jump (.modem () .supervisor)]

/-- The tunnel connects. -/
def tunnelStart (answer : (c : Call Unit) → c.Ans) : List OneModemMove :=
  callsWith answer 15 (.tunnel .run)

/-- A goroutine of the first session starts, and makes a number of calls. -/
def sessionCalls (answer : (c : Call Unit) → c.Ans) (role : Role) (n : ℕ) : List OneModemMove :=
  callsWith answer 1 (.tunnel (.session 0 role)) ++ .jump (.tunnel (.session 0 role)) ::
    callsWith answer n (.tunnel (.session 0 role))

end SmsGate.Gateway
