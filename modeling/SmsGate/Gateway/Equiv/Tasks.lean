import SmsGate.Gateway.Equiv.Runs
import SmsGate.Modem.Equiv.Drain
import SmsGate.Modem.Equiv.Holding
import SmsGate.Prog.Placing
import SmsGate.Tunnel.Equiv.Holding
import SmsGate.Tunnel.Equiv.Writers

/-!
# From a task to its acknowledgement

What becomes of the tasks that the cloud sends, over every run of the gateway.  Each task that a
reader has read is in exactly one place: in the hands of the reader, in the channel of a worker, in
the hands of a worker, answered by a `TASK_ACK`, or in the channel of a worker that was replaced
(`tasks_accounted`).  So no task is executed twice, none is acknowledged twice, and a `TASK_ACK`
that tells of a success is for a task that was executed (`tasks_once`).

What is counted are tasks, not message ids: the cloud may send a task again, and then it is another
one.
-/

namespace SmsGate.Gateway

open Go Tunnel Modem

variable {ι : Type}

/-! ### What a history tells of tasks -/

/-- The tasks in the channel of the worker of a modem. -/
def World.channel (s : World ι) (i : ι) : List Task :=
  (s.modems i).world.inboundCh.map InboundTask.task

/-- The task that a call reads from a connection. -/
def Call.read : (c : Call ι) → c.Ans → List Task
  | .tunnel (.readMessage _), (msg : Option Inbound) => (msg.bind Inbound.task?).toList
  | _, _ => []

/-- The `TASK_ACK` that a call pushes. -/
def Call.acks : Call ι → List TaskAckEvent
  | .tunnel (.push (.taskAck a)) => [a]
  | .modem (.work (.ack _ a)) => [a]
  | _ => []

/-- The task that a worker takes to execute it. -/
def Call.executes : (c : Call ι) → c.Ans → List Task
  | .modem (.work .select), (.task it : Modem.Selected) => [it.task]
  | _, _ => []

/-- The tasks that nobody will take: those in the channel of a worker that is replaced, and one that
is sent to a worker that was. -/
def Call.loses (t : Thread ι) (s : World ι) : (c : Call ι) → c.Ans → List Task
  | .modem .newWorker, _ =>
    match t with
    | .modem i _ => s.channel i
    | .tunnel _ => []
  | .send a task, (sent : Bool) =>
    if sent ∧ a.attempt ≠ (s.modems a.modem).attempt then [task] else []
  | _, _ => []

section History

variable (past : History ι)

/-- The tasks that were read, in order. -/
def tasksRead : List Task := System.collectedCalls (fun _ _ c a => c.read a) past

/-- The acknowledgements that were pushed, in order. -/
def acksPushed : List TaskAckEvent := System.collectedCalls (fun _ _ c _ => c.acks) past

/-- The tasks that workers have taken to execute them, in order. -/
def executedTasks : List Task := System.collectedCalls (fun _ _ c a => c.executes a) past

/-- The tasks that were lost, in order. -/
def lostTasks : List Task := System.collectedCalls (fun t s c a => c.loses t s a) past

end History

section Call

variable (t : Thread ι) (c : Call ι) (a : c.Ans) (s : World ι) (past : History ι)

theorem tasksRead_call : tasksRead (.call t c a s :: past) = tasksRead past ++ c.read a := rfl

theorem acksPushed_call : acksPushed (.call t c a s :: past) = acksPushed past ++ c.acks := rfl

theorem executedTasks_call :
    executedTasks (.call t c a s :: past) = executedTasks past ++ c.executes a := rfl

theorem lostTasks_call : lostTasks (.call t c a s :: past) = lostTasks past ++ c.loses t s a := rfl

end Call

/-! ### The places -/

/-- Where a task can be. -/
inductive Place (ι : Type) where
  | reader (t : Tunnel.Thread)
  | queue (i : ι)
  | worker (i : ι) (executed : Bool)
  | done (a : TaskAckEvent) (executed : Bool)
  | lost
  deriving DecidableEq

namespace Place

/-- How the task was answered. -/
def ack : Place ι → Option TaskAckEvent
  | done a _ => some a
  | _ => none

/-- The task is being executed, or was. -/
def executed : Place ι → Bool
  | worker _ b | done _ b => b
  | _ => false

/-- The answer is one for this task. -/
def Fits (task : Task) : Place ι → Prop
  | done a b => Held.AckedBy ⟨task, b⟩ a
  | _ => True

end Place

/-- What a worker has in its hands, to execute it or not. -/
def handed (held : Option Held) (executed : Bool) : Option Task :=
  (held.filter fun held => held.executed = executed).map Held.task

theorem handed_none (b : Bool) : handed none b = none := rfl

theorem handed_self (held : Held) : handed (some held) held.executed = some held.task := by
  simp [handed, Option.filter]

theorem handed_of_ne {held : Held} {b : Bool} (hb : b ≠ held.executed) :
    handed (some held) b = none := by
  simp [handed, Option.filter, Ne.symm hb]

/-- What is in a place, as the state and the history have it. -/
def contents (s : World ι) (past : History ι) (q : Thread ι → Option Task × Option Held) :
    Place ι → Multiset Task
  | .reader t => (q (.tunnel t)).1.toList
  | .queue i => s.channel i
  | .worker i b => (handed (q (.modem i .supervisor)).2 b).toList
  | .lost => lostTasks past
  | .done _ _ => 0

/-- A placing of all tasks that were read. -/
structure Accounts [DecidableEq ι] (s : World ι) (past : History ι)
    (q : Thread ι → Option Task × Option Held) (L : Placing Task (Place ι)) : Prop where
  items : L.items = tasksRead past
  live : ∀ p, p.ack = none → L.on p = contents s past q p
  acks : L.marks Place.ack = acksPushed past
  executed : L.within (fun p => p.executed = true) = executedTasks past
  fits : ∀ x ∈ L, x.2.Fits x.1

section Moves

variable [DecidableEq ι] {s s' : World ι} {past : History ι}
  {q q' : Thread ι → Option Task × Option Held} {L : Placing Task (Place ι)} {t : Thread ι}
  {c : Call ι} {a : c.Ans} {k : Task} {p p' : Place ι}

theorem accounts_new (sims : ι → Sim) (table : Buffer.Table) :
    Accounts (.new sims table) [] (fun _ => (none, none)) (0 : Placing Task (Place ι)) where
  items := rfl
  live p hp := by
    cases p with
    | done => cases hp
    | _ => rfl
  acks := rfl
  executed := rfl
  fits x hx := absurd hx (Multiset.notMem_zero x)

/-- No task is moved. -/
theorem Accounts.same (h : Accounts s past q L) (hread : c.read a = []) (hacks : c.acks = [])
    (hexecuted : c.executes a = []) (hlive : ∀ p, p.ack = none →
      contents s' (.call t c a s :: past) q' p = contents s past q p) :
    Accounts s' (.call t c a s :: past) q' L where
  items := by
    rw [h.items, tasksRead_call, hread, List.append_nil]
  live p hp := by rw [h.live p hp, hlive p hp]
  acks := by
    rw [h.acks, acksPushed_call, hacks, List.append_nil]
  executed := by
    rw [h.executed, executedTasks_call, hexecuted, List.append_nil]
  fits := h.fits

/-- A task is read. -/
theorem Accounts.arrive (h : Accounts s past q L) (hp : p.ack = none) (hp' : p.executed = false)
    (hread : c.read a = [k]) (hacks : c.acks = []) (hexecuted : c.executes a = [])
    (hto : contents s' (.call t c a s :: past) q' p = k ::ₘ contents s past q p)
    (hother : ∀ r, r.ack = none → r ≠ p →
      contents s' (.call t c a s :: past) q' r = contents s past q r) (hfits : p.Fits k) :
    Accounts s' (.call t c a s :: past) q' ((k, p) ::ₘ L) where
  items := by
    rw [Placing.items_cons, h.items, tasksRead_call, hread, ← Multiset.coe_add, add_comm,
      Multiset.coe_singleton, Multiset.singleton_add]
  live r hr := by
    by_cases hrp : r = p
    · subst hrp
      rw [Placing.on_cons_self, h.live r hr, hto]
    · rw [Placing.on_cons_of_ne (Ne.symm hrp), h.live r hr, hother r hr hrp]
  acks := by
    rw [Placing.marks_cons, hp, h.acks, acksPushed_call, hacks, List.append_nil,
      Option.toList_none, Multiset.coe_nil, zero_add]
  executed := by
    rw [Placing.within_cons_of_neg (by simp [hp']), h.executed, executedTasks_call, hexecuted,
      List.append_nil]
  fits x hx := by
    rcases Multiset.mem_cons.mp hx with rfl | hx
    · exact hfits
    · exact h.fits x hx

/-- A task is moved from one place to another. -/
theorem Accounts.move (h : Accounts s past q L) (k : Task) (p p' : Place ι) (hp : p.ack = none)
    (hne : p ≠ p')
    (hread : c.read a = []) (hacks : c.acks = p'.ack.toList)
    (hexecuted : (if p.executed then [k] else []) ++ c.executes a =
      if p'.executed then [k] else [])
    (hfrom : contents s past q p = k ::ₘ contents s' (.call t c a s :: past) q' p)
    (hto : p'.ack = none →
      contents s' (.call t c a s :: past) q' p' = k ::ₘ contents s past q p')
    (hother : ∀ r, r.ack = none → r ≠ p → r ≠ p' →
      contents s' (.call t c a s :: past) q' r = contents s past q r) (hfits : p'.Fits k) :
    ∃ L', Accounts s' (.call t c a s :: past) q' L' := by
  have hmem : k ∈ L.on p := by
    rw [h.live p hp, hfrom]
    exact Multiset.mem_cons_self _ _
  obtain ⟨L, rfl⟩ := Placing.exists_cons_of_mem_on hmem
  refine ⟨(k, p') ::ₘ L, ?_, ?_, ?_, ?_, ?_⟩
  · have hitems := h.items
    rw [Placing.items_cons] at hitems
    rw [Placing.items_cons, tasksRead_call, hread, List.append_nil, hitems]
  · intro r hr
    have hlive := h.live r hr
    by_cases hrp : r = p
    · subst hrp
      rw [Placing.on_cons_self, hfrom] at hlive
      rw [Placing.on_cons_of_ne hne.symm]
      exact (Multiset.cons_inj_right k).mp hlive
    · rw [Placing.on_cons_of_ne (Ne.symm hrp)] at hlive
      by_cases hrp' : r = p'
      · subst hrp'
        rw [Placing.on_cons_self, hlive, hto hr]
      · rw [Placing.on_cons_of_ne (Ne.symm hrp'), hlive, hother r hr hrp hrp']
  · have hold := h.acks
    rw [Placing.marks_cons, hp, Option.toList_none, Multiset.coe_nil, zero_add] at hold
    rw [Placing.marks_cons, hold, acksPushed_call, hacks, ← Multiset.coe_add, add_comm]
  · have hold := h.executed
    rw [Placing.within_cons] at hold
    rw [Placing.within_cons, executedTasks_call, ← Multiset.coe_add, ← hold, ← hexecuted,
      ← Multiset.coe_add, add_right_comm]
  · intro x hx
    rcases Multiset.mem_cons.mp hx with rfl | hx
    · exact hfits
    · exact h.fits x (Multiset.mem_cons_of_mem hx)

/-- All tasks in the channel of a worker are lost. -/
theorem Accounts.lose {i : ι} (h : Accounts s past q L) (hread : c.read a = [])
    (hacks : c.acks = []) (hexecuted : c.executes a = []) (hloses : c.loses t s a = s.channel i)
    (hchannel : s'.channel i = [])
    (hother : ∀ r, r.ack = none → r ≠ .queue i → r ≠ .lost →
      contents s' (.call t c a s :: past) q' r = contents s past q r) :
    Accounts s' (.call t c a s :: past) q' (L.relocate (.queue i) .lost) where
  items := by
    rw [Placing.items_relocate, h.items, tasksRead_call, hread, List.append_nil]
  live r hr := by
    by_cases hqueue : r = .queue i
    · subst hqueue
      rw [Placing.on_relocate_self (by nofun), contents, hchannel, Multiset.coe_nil]
    · by_cases hlost : r = .lost
      · subst hlost
        rw [Placing.on_relocate (by nofun), h.live _ rfl, h.live _ rfl, contents, contents,
          contents, lostTasks_call, hloses, ← Multiset.coe_add, add_comm]
      · have hsame : (L.relocate (.queue i) .lost).on r = L.on r :=
          Placing.within_relocate (iff_of_false (Ne.symm hqueue) (Ne.symm hlost))
        rw [hsame, h.live r hr, hother r hr hqueue hlost]
  acks := by
    have hsame : (L.relocate (.queue i) .lost).marks Place.ack = L.marks Place.ack :=
      Placing.marks_relocate rfl
    rw [hsame, h.acks, acksPushed_call, hacks, List.append_nil]
  executed := by
    have hsame : (L.relocate (.queue i) .lost).within (fun p => p.executed = true) =
        L.within fun p => p.executed = true := Placing.within_relocate Iff.rfl
    rw [hsame, h.executed, executedTasks_call, hexecuted, List.append_nil]
  fits x hx := by
    obtain ⟨⟨k, r⟩, hmem, rfl⟩ := Multiset.mem_map.mp hx
    split_ifs
    · trivial
    · exact h.fits _ hmem

end Moves

/-! ### What a call does to the channels -/

section Effect

variable [DecidableEq ι] {w : ι → Worker} {ch : Chance} {s s' : World ι}

/-- The task that a worker takes out of its channel. -/
def taken : (c : SupervisorCall) → c.Ans → Option Task
  | .work .select, (.task it : Modem.Selected) => some it.task
  | .work .tryRecv, (received : Option InboundTask) => received.map InboundTask.task
  | _, _ => none

theorem channel_setModem_self (i : ι) (m : SupervisorWorld Sim) :
    (s.setModem i m).channel i = m.world.inboundCh.map InboundTask.task := by
  simp only [World.channel, World.setModem, Function.update_self]

theorem channel_setModem_of_ne {i j : ι} (hj : j ≠ i) (m : SupervisorWorld Sim) :
    (s.setModem i m).channel j = s.channel j := by
  simp only [World.channel, World.setModem, Function.update_of_ne hj]

theorem channel_setWorker {i : ι} {m : Modem.World Sim}
    (hm : m.inboundCh = (s.modems i).world.inboundCh) (j : ι) :
    (s.setWorker i m).channel j = s.channel j := by
  by_cases hj : j = i
  · subst hj
    rw [World.setWorker, channel_setModem_self, World.channel, ← hm]
  · exact channel_setModem_of_ne hj _

/-- A worker takes the first task of its channel. -/
theorem inboundCh_of_exec {m m' : Modem.World Sim} {e : Modem.Call} {a : e.Ans}
    (hexec : m.exec Sim.exec ch e a = some m') :
    m.inboundCh.map InboundTask.task =
      (taken (.work e) a).toList ++ m'.inboundCh.map InboundTask.task := by
  by_cases he : e.movesTasks = false
  · rw [((effect_of_exec hexec).tasks he).inboundCh]
    cases e with
    | select | tryRecv => cases he
    | _ => rfl
  · cases e with
    | select =>
      cases a with
      | task it =>
        obtain ⟨rest, hch, rfl⟩ := eq_of_receive hexec
        rw [hch]
        rfl
      | ctxDone | reset =>
        obtain ⟨-, hm⟩ := Option.ite_none_right_eq_some.mp hexec
        cases hm
        rfl
      | _ =>
        cases hexec
        rfl
    | tryRecv =>
      cases a with
      | some it =>
        obtain ⟨rest, hch, rfl⟩ := eq_of_receive hexec
        rw [hch]
        rfl
      | none =>
        obtain ⟨-, hm⟩ := Option.ite_none_right_eq_some.mp hexec
        cases hm
        rfl
    | ack | deregister =>
      cases hexec
      rfl
    | _ => exact absurd rfl he

/-- What a call of a worker does to the channels. -/
theorem channel_work {i : ι} {e : Modem.Call} {a : e.Ans} {m : SupervisorWorld Sim}
    (hexec : (s.modems i).exec Sim.exec .supervisor ch (.work e) a = some m)
    (hshared : (s.setModem i m).shared ch i (.work e) a = some s') :
    s.channel i = (taken (.work e) a).toList ++ s'.channel i ∧
      ∀ j, j ≠ i → s'.channel j = s.channel j := by
  obtain ⟨hmodems, -, -⟩ := shared_eq hshared
  have hchannel : s'.channel = (s.setModem i m).channel := by
    funext j
    simp only [World.channel, hmodems]
  obtain ⟨m', hm', rfl⟩ := Option.map_eq_some_iff.mp hexec
  rw [hchannel]
  exact ⟨by rw [channel_setModem_self]; exact inboundCh_of_exec hm',
    fun j hj => channel_setModem_of_ne hj _⟩

/-- The calls of a watchdog, and the supervisor's own except for `newWorker`, leave the channels
alone. -/
theorem channel_other {i : ι} {u : SupervisorThread} {c : SupervisorCall} {a : c.Ans}
    {m : SupervisorWorld Sim} (hc : ∀ e, c = .work e → e.ofWatchdog) (hnew : c ≠ .newWorker)
    (hexec : (s.modems i).exec Sim.exec u ch c a = some m)
    (hshared : (s.setModem i m).shared ch i c a = some s') (j : ι) :
    s'.channel j = s.channel j := by
  obtain ⟨hmodems, -, -⟩ := shared_eq hshared
  have hchannel : s'.channel j = (s.setModem i m).channel j := by
    simp only [World.channel, hmodems]
  have hkeeps : m.world.inboundCh = (s.modems i).world.inboundCh := by
    rcases exec_other_cases hc hexec with rfl | ⟨hc, -⟩ | ⟨e, a, he, hm⟩
    · rfl
    · exact absurd hc hnew
    · exact ((effect_of_exec hm).tasks (movesTasks_of_ofWatchdog e he)).inboundCh
  rw [hchannel]
  by_cases hj : j = i
  · subst hj
    rw [channel_setModem_self, hkeeps, World.channel]
  · exact channel_setModem_of_ne hj m

end Effect

/-! ### The tunnel -/

/-- What the tunnel does with tasks: `Tunnel.holdingProtocol`, with the router's send. -/
def routingProtocol (ι : Type) : Protocol (Call ι) Call.Ans (Option Task) where
  allows q c :=
    match c with
    | .tunnel c => Tunnel.holdingProtocol.allows q c ∧ ∀ task, c ≠ .route task
    | .send _ task => q = some task
    | .lookup _ => True
    | .modem _ => False
  next q c a :=
    match c, a with
    | .tunnel c, a => Tunnel.holdingProtocol.next q c a
    | .send _ _, (sent : Bool) => if sent then none else q
    | _, _ => q

theorem dispatch_obeys_routing (h : Router.Host) (task : Task) :
    (dispatch h task).Obeys (routingProtocol ι) (some task)
      fun err q => q = if err = none then none else some task := by
  unfold dispatch
  cases Router.extractICCID h task with
  | error text => exact rfl
  | ok iccid =>
    refine Prog.perform_bind_obeys trivial fun (found : Option (Address ι)) => ?_
    cases found with
    | none => exact rfl
    | some w =>
      refine Prog.perform_bind_obeys rfl fun (sent : Bool) => ?_
      cases sent with
      | true => exact rfl
      | false => exact rfl

theorem block_obeys_routing (h : Router.Host) (cfg : ManagerConfig) (l : Tunnel.Label) :
    ((Tunnel.block cfg l).interpret (tunnelCall h)).Obeys (routingProtocol ι) none
      fun _ q => q = none := by
  refine (Tunnel.block_obeys_holding l).interpret fun q c hallow => ?_
  cases c with
  | route task =>
    obtain rfl : q = some task := hallow
    exact dispatch_obeys_routing h task
  | _ => exact ⟨⟨hallow, nofun⟩, fun _ => rfl⟩

section Steps

variable {w : ι → Worker} {ch : Chance} {s s' : World ι} {past past' : History ι}
  {q q' : Thread ι → Option Task × Option Held} {L : Placing Task (Place ι)}

theorem contents_congr {r : Place ι}
    (hreader : ∀ t, r = .reader t → (q' (.tunnel t)).1 = (q (.tunnel t)).1)
    (hqueue : ∀ i, r = .queue i → s'.channel i = s.channel i)
    (hworker : ∀ i b, r = .worker i b →
      handed (q' (.modem i .supervisor)).2 b = handed (q (.modem i .supervisor)).2 b)
    (hlost : r = .lost → lostTasks past' = lostTasks past) :
    contents s' past' q' r = contents s past q r := by
  cases r with
  | reader t => rw [contents, contents, hreader t rfl]
  | queue i => rw [contents, contents, hqueue i rfl]
  | worker i b => rw [contents, contents, hworker i b rfl]
  | lost => rw [contents, contents, hlost rfl]
  | done => rfl

variable [DecidableEq ι]

/-- What a call of the tunnel leaves in the places of others. -/
theorem contents_tunnel {u : Tunnel.Thread} {x : Option Task × Option Held} {r : Place ι}
    (hreader : r = .reader u → x.1 = (q (.tunnel u)).1)
    (hqueue : ∀ i, r = .queue i → s'.channel i = s.channel i)
    (hlost : r = .lost → lostTasks past' = lostTasks past) :
    contents s' past' (Function.update q (.tunnel u) x) r = contents s past q r := by
  refine contents_congr ?_ hqueue (fun i b _ => ?_) hlost
  · rintro v rfl
    by_cases hv : v = u
    · subst hv
      rw [Function.update_self, hreader rfl]
    · rw [Function.update_of_ne (by simpa using hv)]
  · rw [Function.update_of_ne (by simp)]

theorem accounts_tunnel {u : Tunnel.Thread} {c : Tunnel.Call} {a : c.Ans} {tunnel : Tunnel.World}
    (h : Accounts s past q L) (hallow : (routingProtocol ι).allows (q (.tunnel u)).1 (.tunnel c)) :
    ∃ L', Accounts { s with tunnel } (.call (.tunnel u) (.tunnel c) a s :: past)
      (Function.update q (.tunnel u)
        ((routingProtocol ι).next (q (.tunnel u)).1 (.tunnel c) a, (q (.tunnel u)).2)) L' := by
  obtain ⟨hallow, hroute⟩ := hallow
  have hlost : lostTasks (.call (.tunnel u) (.tunnel c) a s :: past) = lostTasks past :=
    List.append_nil _
  cases c with
  | readMessage n =>
    have hnone : (q (.tunnel u)).1 = none := hallow
    cases hmsg : (a : Option Inbound).bind Inbound.task? with
    | none =>
      refine ⟨L, h.same ?_ rfl rfl fun p hp => contents_tunnel (fun _ => ?_) (fun _ _ => rfl)
        fun _ => hlost⟩
      · exact congrArg Option.toList hmsg
      · exact hmsg.trans hnone.symm
    | some task =>
      refine ⟨(task, .reader u) ::ₘ L, h.arrive rfl rfl ?_ rfl rfl ?_ (fun r hr hne => ?_) trivial⟩
      · exact congrArg Option.toList hmsg
      · have hnext : (routingProtocol ι).next (q (.tunnel u)).1 (.tunnel (.readMessage n)) a =
            some task := hmsg
        rw [contents, contents, Function.update_self, hnext, hnone]
        rfl
      · exact contents_tunnel (fun heq => absurd heq hne) (fun _ _ => rfl) fun _ => hlost
  | push m =>
    obtain ⟨task, hheld, ack, rfl, hid, hstatus⟩ := hallow
    refine h.move task (.reader u) (.done ack false) rfl nofun rfl rfl rfl ?_ nofun
      (fun r hr hne _ => ?_) ⟨hid, fun hsuccess => ?_⟩
    · rw [contents, contents, Function.update_self, hheld]
      rfl
    · exact contents_tunnel (fun heq => absurd heq hne) (fun _ _ => rfl) fun _ => hlost
    · rw [hstatus] at hsuccess
      cases hsuccess
  | route task => exact absurd rfl (hroute task)
  | _ =>
    exact ⟨L, h.same rfl rfl rfl fun p hp =>
      contents_tunnel (fun _ => rfl) (fun _ _ => rfl) fun _ => hlost⟩

/-- The lookup of the router leaves the channels alone. -/
theorem channel_lookup {t : Thread ι} {iccid : List UInt8} {a : Option (Address ι)}
    (hexec : s.exec w t ch (.lookup iccid) a = some s') (i : ι) : s'.channel i = s.channel i := by
  obtain ⟨-, hs⟩ := Option.ite_none_right_eq_some.mp hexec
  cases hs
  cases a with
  | none => rfl
  | some a =>
    unfold World.found
    dsimp only
    split_ifs
    · refine channel_setWorker ?_ i
      rfl
    · rfl

/-- The send of the router puts the task at the end of a channel, or into one that is left. -/
theorem channel_send {t : Thread ι} {addr : Address ι} {task : Task} {sent : Bool}
    (hexec : s.exec w t ch (.send addr task) sent = some s') :
    if sent ∧ addr.attempt = (s.modems addr.modem).attempt then
      s'.channel addr.modem = s.channel addr.modem ++ [task] ∧
        ∀ j, j ≠ addr.modem → s'.channel j = s.channel j
    else ∀ j, s'.channel j = s.channel j := by
  simp only [World.exec, World.send] at hexec
  by_cases hcurrent : addr.attempt = (s.modems addr.modem).attempt
  · rw [if_pos hcurrent] at hexec
    obtain ⟨hsent, hmap⟩ := Option.ite_none_right_eq_some.mp hexec
    obtain ⟨m, hm, rfl⟩ := Option.map_eq_some_iff.mp hmap
    simp only [Modem.Outer.step] at hm
    split_ifs at hm with hlookups hroom
    · cases hm
      rw [if_pos ⟨by rw [hsent]; exact decide_eq_true hroom, hcurrent⟩]
      refine ⟨?_, fun j hj => channel_setModem_of_ne hj _⟩
      rw [World.setWorker, channel_setModem_self, List.map_append]
      rfl
    · cases hm
      rw [if_neg fun hif => hroom (of_decide_eq_true (hsent.symm.trans hif.1))]
      exact channel_setWorker rfl
  · rw [if_neg hcurrent] at hexec
    cases hexec
    rw [if_neg fun hif => hcurrent hif.2]
    exact fun j => rfl

theorem accounts_lookup {u : Tunnel.Thread} {iccid : List UInt8} {a : Option (Address ι)}
    (h : Accounts s past q L) (hexec : s.exec w (.tunnel u) ch (.lookup iccid) a = some s') :
    Accounts s' (.call (.tunnel u) (.lookup iccid) a s :: past)
      (Function.update q (.tunnel u) ((q (.tunnel u)).1, (q (.tunnel u)).2)) L :=
  h.same rfl rfl rfl fun _ _ => contents_tunnel (fun _ => rfl)
    (fun i _ => channel_lookup hexec i) fun _ => List.append_nil _

theorem accounts_send {u : Tunnel.Thread} {addr : Address ι} {task : Task} {sent : Bool}
    (h : Accounts s past q L) (hallow : (q (.tunnel u)).1 = some task)
    (hexec : s.exec w (.tunnel u) ch (.send addr task) sent = some s') :
    ∃ L', Accounts s' (.call (.tunnel u) (.send addr task) sent s :: past)
      (Function.update q (.tunnel u)
        (if sent then none else (q (.tunnel u)).1, (q (.tunnel u)).2)) L' := by
  have hchannel := channel_send hexec
  have hloses : (Call.send addr task).loses (.tunnel u) s sent =
      if sent ∧ addr.attempt ≠ (s.modems addr.modem).attempt then [task] else [] := rfl
  cases sent with
  | false =>
    rw [if_neg (by simp)] at hchannel hloses
    refine ⟨L, h.same rfl rfl rfl fun p _ => contents_tunnel (fun _ => rfl)
      (fun i _ => hchannel i) fun _ => ?_⟩
    rw [lostTasks_call, hloses, List.append_nil]
  | true =>
    have hhands : contents s past q (.reader u) = task ::ₘ contents s'
        (.call (.tunnel u) (.send addr task) true s :: past)
        (Function.update q (.tunnel u) (none, (q (.tunnel u)).2)) (.reader u) := by
      rw [contents, contents, Function.update_self, hallow]
      rfl
    by_cases hcurrent : addr.attempt = (s.modems addr.modem).attempt
    · -- the task waits for the worker
      rw [if_pos ⟨rfl, hcurrent⟩] at hchannel
      rw [if_neg (by simp [hcurrent])] at hloses
      refine h.move task (.reader u) (.queue addr.modem) rfl nofun rfl rfl rfl hhands
        (fun _ => ?_) (fun r _ hne hne' => ?_) trivial
      · rw [contents, contents, hchannel.1, ← Multiset.coe_add, add_comm, Multiset.coe_singleton,
          Multiset.singleton_add]
      · refine contents_tunnel (fun heq => absurd heq hne) (fun i hi => ?_) fun _ => ?_
        · subst hi
          exact hchannel.2 i fun heq => hne' (congrArg Place.queue heq)
        · rw [lostTasks_call, hloses, List.append_nil]
    · -- the worker was replaced since the lookup
      rw [if_neg fun hif => hcurrent hif.2] at hchannel
      rw [if_pos ⟨rfl, hcurrent⟩] at hloses
      refine h.move task (.reader u) .lost rfl nofun rfl rfl rfl hhands
        (fun _ => ?_) (fun r _ hne hne' => ?_) trivial
      · rw [contents, contents, lostTasks_call, hloses, ← Multiset.coe_add, add_comm,
          Multiset.coe_singleton, Multiset.singleton_add]
      · exact contents_tunnel (fun heq => absurd heq hne) (fun i _ => hchannel i)
          fun heq => absurd heq hne'

/-! ### The workers -/

/-- What a call of a supervisor, a worker or a watchdog leaves in the places of others. -/
theorem contents_modem {i : ι} {u : SupervisorThread} {x : Option Task × Option Held} {r : Place ι}
    (hqueue : ∀ j, r = .queue j → s'.channel j = s.channel j)
    (hworker : u = .supervisor → ∀ b, r = .worker i b →
      handed x.2 b = handed (q (.modem i .supervisor)).2 b)
    (hlost : r = .lost → lostTasks past' = lostTasks past) :
    contents s' past' (Function.update q (.modem i u) x) r = contents s past q r := by
  refine contents_congr (fun t _ => ?_) hqueue ?_ hlost
  · rw [Function.update_of_ne (by simp)]
  · rintro j b rfl
    by_cases hj : j = i ∧ u = .supervisor
    · obtain ⟨rfl, rfl⟩ := hj
      rw [Function.update_self, hworker rfl b rfl]
    · rw [Function.update_of_ne]
      intro heq
      cases heq
      exact hj ⟨rfl, rfl⟩

/-- A worker takes a task, to execute it or not. -/
theorem accounts_take {i : ι} {c : SupervisorCall} {a : c.Ans} {task : Task} {b : Bool}
    (h : Accounts s past q L) (hheld : (q (.modem i .supervisor)).2 = none)
    (hread : (Call.modem c : Call ι).read a = []) (hacks : (Call.modem c : Call ι).acks = [])
    (hexecuted : (Call.modem c : Call ι).executes a = if b then [task] else [])
    (hloses : (Call.modem c : Call ι).loses (.modem i .supervisor) s a = [])
    (hchannel : s.channel i = [task] ++ s'.channel i)
    (hother : ∀ j, j ≠ i → s'.channel j = s.channel j) :
    ∃ L', Accounts s' (.call (.modem i .supervisor) (.modem c) a s :: past)
      (Function.update q (.modem i .supervisor)
        ((q (.modem i .supervisor)).1, some ⟨task, b⟩)) L' := by
  refine h.move task (.queue i) (.worker i b) rfl nofun hread hacks hexecuted ?_ (fun _ => ?_)
    (fun r _ hne hne' => ?_) trivial
  · rw [contents, contents, hchannel]
    rfl
  · rw [contents, contents, Function.update_self, hheld, handed_self ⟨task, b⟩, handed_none]
    rfl
  · refine contents_modem ?_ (fun _ b' hr => ?_) fun _ => ?_
    · rintro j rfl
      exact hother j fun heq => hne (congrArg Place.queue heq)
    · subst hr
      have hb : b' ≠ b := fun heq => hne' (congrArg (Place.worker i) heq)
      rw [hheld, handed_of_ne hb, handed_none]
    · rw [lostTasks_call, hloses, List.append_nil]

theorem accounts_work {i : ι} {e : Modem.Call} {a : e.Ans} {m : SupervisorWorld Sim}
    (h : Accounts s past q L)
    (hallow : Modem.holdingProtocol.allows (q (.modem i .supervisor)).2 e)
    (hexec : (s.modems i).exec Sim.exec .supervisor ch (.work e) a = some m)
    (hshared : (s.setModem i m).shared ch i (.work e) a = some s') :
    ∃ L', Accounts s' (.call (.modem i .supervisor) (.modem (.work e)) a s :: past)
      (Function.update q (.modem i .supervisor) ((q (.modem i .supervisor)).1,
        Modem.holdingProtocol.next (q (.modem i .supervisor)).2 e a)) L' := by
  obtain ⟨hchannel, hother⟩ := channel_work hexec hshared
  have hlost : lostTasks (.call (.modem i .supervisor) (.modem (.work e)) a s :: past) =
      lostTasks past := List.append_nil _
  have hsame : taken (.work e) a = none → ∀ j, s'.channel j = s.channel j := by
    intro htaken j
    rw [htaken] at hchannel
    by_cases hj : j = i
    · subst hj
      exact hchannel.symm
    · exact hother j hj
  cases e with
  | ack ackFn ack =>
    obtain ⟨held, hheld, hfits⟩ := hallow
    refine h.move held.task (.worker i held.executed) (.done ack held.executed) rfl nofun rfl rfl
      (List.append_nil _) ?_ nofun (fun r _ hne _ => ?_) hfits
    · rw [contents, contents, Function.update_self, hheld, handed_self]
      rfl
    · refine contents_modem (fun j _ => hsame rfl j) (fun _ b hr => ?_) fun _ => hlost
      subst hr
      have hb : b ≠ held.executed := fun heq => hne (congrArg (Place.worker i) heq)
      rw [hheld, handed_of_ne hb]
      rfl
  | select =>
    cases a with
    | task it => exact accounts_take h hallow rfl rfl rfl rfl hchannel hother
    | _ =>
      exact ⟨L, h.same rfl rfl rfl fun p _ =>
        contents_modem (fun j _ => hsame rfl j) (fun _ _ _ => rfl) fun _ => hlost⟩
  | tryRecv =>
    cases a with
    | some it => exact accounts_take h hallow rfl rfl rfl rfl hchannel hother
    | none =>
      exact ⟨L, h.same rfl rfl rfl fun p _ =>
        contents_modem (fun j _ => hsame rfl j) (fun _ _ _ => rfl) fun _ => hlost⟩
  | _ =>
    exact ⟨L, h.same rfl rfl rfl fun p _ =>
      contents_modem (fun j _ => hsame rfl j) (fun _ _ _ => rfl) fun _ => hlost⟩

/-- The channel of a worker that is replaced is left with all that is in it. -/
theorem accounts_newWorker {i : ι} {a : Unit} {m : SupervisorWorld Sim} (h : Accounts s past q L)
    (hexec : (s.modems i).exec Sim.exec .supervisor ch .newWorker a = some m)
    (hshared : (s.setModem i m).shared ch i .newWorker a = some s') :
    ∃ L', Accounts s' (.call (.modem i .supervisor) (.modem .newWorker) a s :: past) q L' := by
  cases hexec
  cases hshared
  refine ⟨_, h.lose rfl rfl rfl rfl ?_ fun r _ hqueue hlost => ?_⟩
  · rw [channel_setModem_self]
    rfl
  · refine contents_congr (fun _ _ => rfl) ?_ (fun _ _ _ => rfl) fun heq => absurd heq hlost
    rintro j rfl
    exact channel_setModem_of_ne (fun heq => hqueue (congrArg Place.queue heq)) _

/-- The other calls of a supervisor, and those of a watchdog. -/
theorem accounts_other {i : ι} {u : SupervisorThread} {c : SupervisorCall} {a : c.Ans}
    {m : SupervisorWorld Sim} (h : Accounts s past q L) (hc : ∀ e, c = .work e → e.ofWatchdog)
    (hnew : c ≠ .newWorker) (hexec : (s.modems i).exec Sim.exec u ch c a = some m)
    (hshared : (s.setModem i m).shared ch i c a = some s') :
    Accounts s' (.call (.modem i u) (.modem c) a s :: past) q L := by
  have hchannel := channel_other hc hnew hexec hshared
  have hquiet : (Call.modem c : Call ι).acks = [] ∧ (Call.modem c : Call ι).executes a = [] ∧
      (Call.modem c : Call ι).loses (.modem i u) s a = [] := by
    cases c with
    | work e =>
      have he := hc e rfl
      cases e with
      | ack | select => cases he
      | _ => exact ⟨rfl, rfl, rfl⟩
    | newWorker => exact absurd rfl hnew
    | ctxErr | backOff => exact ⟨rfl, rfl, rfl⟩
  obtain ⟨hacks, hexecuted, hloses⟩ := hquiet
  refine h.same rfl hacks hexecuted fun p _ => contents_congr (fun _ _ => rfl)
    (fun j _ => hchannel j) (fun _ _ _ => rfl) fun _ => ?_
  rw [lostTasks_call, hloses, List.append_nil]

/-! ### Over whole runs -/

/-- All tasks are accounted for. -/
def Accounted (s : World ι) (past : History ι) (q : Thread ι → Option Task × Option Held) : Prop :=
  ∃ L, Accounts s past q L

theorem accounted_modem {i : ι} {u : SupervisorThread} {c : SupervisorCall} {a : c.Ans}
    {m : SupervisorWorld Sim} (h : Accounted s past q)
    (hallow : (supervisedProtocols Modem.holdingProtocol id u).allows (q (.modem i u)).2 c)
    (hexec : (s.modems i).exec Sim.exec u ch c a = some m)
    (hshared : (s.setModem i m).shared ch i c a = some s') :
    Accounted s' (.call (.modem i u) (.modem c) a s :: past)
      (Function.update q (.modem i u) ((q (.modem i u)).1,
        (supervisedProtocols Modem.holdingProtocol id u).next (q (.modem i u)).2 c a)) := by
  obtain ⟨L, h⟩ := h
  have hself : Function.update q (.modem i u) ((q (.modem i u)).1, (q (.modem i u)).2) = q :=
    Function.update_eq_self _ q
  cases u with
  | watchdog n =>
    refine ⟨L, ?_⟩
    rw [show (supervisedProtocols Modem.holdingProtocol id (.watchdog n)).next
      (q (.modem i (.watchdog n))).2 c a = (q (.modem i (.watchdog n))).2 from rfl, hself]
    refine accounts_other h ?_ ?_ hexec hshared
    · rintro e rfl
      exact hallow
    · rintro rfl
      cases hallow
  | supervisor =>
    cases c with
    | work e => exact accounts_work h hallow hexec hshared
    | newWorker =>
      obtain ⟨L', hL'⟩ := accounts_newWorker h hexec hshared
      exact ⟨L', hself.symm ▸ hL'⟩
    | ctxErr | backOff => exact ⟨L, hself.symm ▸ accounts_other h nofun nofun hexec hshared⟩

theorem accounted_call {t : Thread ι} {c : Call ι} {a : c.Ans} (h : Accounted s past q)
    (hallow : (protocols (routingProtocol ι) (fun _ => Modem.holdingProtocol) id t).allows (q t) c)
    (hexec : s.exec w t ch c a = some s') :
    Accounted s' (.call t c a s :: past) (Function.update q t
      ((protocols (routingProtocol ι) (fun _ => Modem.holdingProtocol) id t).next (q t) c a)) := by
  cases c with
  | tunnel c =>
    obtain ⟨u, tunnel, rfl, -, rfl⟩ := exec_tunnel hexec
    obtain ⟨L, h⟩ := h
    exact accounts_tunnel h hallow
  | modem c =>
    obtain ⟨i, u, m, rfl, hm, hshared⟩ := exec_modem hexec
    exact accounted_modem h hallow hm hshared
  | lookup iccid =>
    cases t with
    | modem => exact hallow.elim
    | tunnel u =>
      obtain ⟨L, h⟩ := h
      exact ⟨L, accounts_lookup h hexec⟩
  | send addr task =>
    cases t with
    | modem => exact hallow.elim
    | tunnel u =>
      obtain ⟨L, h⟩ := h
      exact accounts_send h hallow hexec

theorem channel_outer {v : Outer ι} (hstep : v.step s = some s') (i : ι) :
    s'.channel i = s.channel i := by
  cases v with
  | arrive j slot pdu =>
    obtain ⟨-, hs⟩ := Option.ite_none_right_eq_some.mp hstep
    cases hs
    refine channel_setWorker ?_ i
    rfl
  | cancel | tick =>
    cases hstep
    rfl
  | requestReset iccid =>
    rcases eq_of_requestReset hstep with rfl | ⟨j, rfl⟩
    · rfl
    · refine channel_setWorker ?_ i
      rfl

theorem accounted_outer {v : Outer ι} (h : Accounted s past q) (hstep : v.step s = some s') :
    Accounted s' (.env v s :: past) q := by
  obtain ⟨L, h⟩ := h
  have hsame : ∀ {α : Type} (f : Thread ι → World ι → (c : Call ι) → c.Ans → List α),
      System.collectedCalls f (.env v s :: past) = System.collectedCalls f past :=
    fun f => System.collectedCalls_env f v s past
  refine ⟨L, ?_, fun p hp => ?_, ?_, ?_, h.fits⟩
  · rw [h.items, tasksRead, tasksRead, hsame]
  · rw [h.live p hp]
    refine (contents_congr (fun _ _ => rfl) (fun i _ => channel_outer hstep i) (fun _ _ _ => rfl)
      fun _ => ?_).symm
    rw [lostTasks, lostTasks, hsame]
  · rw [h.acks, acksPushed, acksPushed, hsame]
  · rw [h.executed, executedTasks, executedTasks, hsame]

end Steps

section Runs

variable [DecidableEq ι] (h : Router.Host) (cfg : ManagerConfig) (w : ι → Worker)

/-- All that can happen keeps the account. -/
def accountProof :
    GatewayProof h cfg w (routingProtocol ι) (fun _ => Modem.holdingProtocol) id where
  tunnelHead _ _ q := q = none
  tunnel_obeys t l q hq := by
    rw [hq]
    refine (block_obeys_routing h cfg l).mono fun res q hq => ?_
    cases res with
    | inl l => exact hq
    | inr r => trivial
  run i := holdingRun h.toModem (wired cfg (w i))
  run_reset _ _ _ hq := by
    obtain ⟨_, rfl, rfl⟩ := hq
    exact ⟨none, rfl, nofun, rfl⟩
  inv := Accounted
  call_inv := accounted_call
  outer_inv := accounted_outer

variable {h cfg w} {sims : ι → Sim} {table₀ : Buffer.Table}

theorem accounted_reach {c : RecordedConfig ι}
    (hreach : (gatewaySystem h cfg w).recorded.Reach
      ((gatewaySystem h cfg w).recorded.start ⟨.new sims table₀, []⟩ entry) c) :
    ∃ q, Accounted c.state.state c.state.history q := by
  obtain ⟨q, hinv, -⟩ := (accountProof h cfg w).reach (none, none) ⟨0, accounts_new sims table₀⟩
    (fun _ => rfl) (fun _ => ⟨none, rfl, nofun, rfl⟩) hreach
  exact ⟨q, hinv⟩

/-- The message ids of some tasks. -/
abbrev taskIDs (tasks : List Task) : List (List UInt8) := tasks.map Task.messageID

/-- The ids of the tasks that some acknowledgements are for. -/
abbrev ackIDs (acks : List TaskAckEvent) : List (List UInt8) :=
  acks.map fun a => a.envelope.messageID

/-- **Every task once.**  After any run of the gateway: the tasks that were executed are among those
that were read, each as often at most; so are the tasks that were acknowledged; and the tasks whose
`TASK_ACK` tells of a success are among those that were executed. -/
theorem tasks_once {c : RecordedConfig ι}
    (hreach : (gatewaySystem h cfg w).recorded.Reach
      ((gatewaySystem h cfg w).recorded.start ⟨.new sims table₀, []⟩ entry) c) :
    (executedTasks c.state.history).Subperm (tasksRead c.state.history) ∧
      (ackIDs (acksPushed c.state.history)).Subperm (taskIDs (tasksRead c.state.history)) ∧
      (ackIDs ((acksPushed c.state.history).filter fun a => a.status = .success)).Subperm
        (taskIDs (executedTasks c.state.history)) := by
  obtain ⟨q, L, hL⟩ := accounted_reach hreach
  have hfits : ∀ x ∈ L, ∀ a, x.2.ack = some a → a.envelope.messageID = x.1.messageID ∧
      (a.status = .success → x.2.executed = true) := by
    rintro ⟨task, p⟩ hx a hack
    cases p with
    | done a' b =>
      cases hack
      exact hL.fits _ hx
    | _ => cases hack
  simp only [← Multiset.coe_le]
  refine ⟨?_, ?_, ?_⟩
  · rw [← hL.executed, ← hL.items]
    exact Placing.within_le_items
  · have hle := Placing.map_marks_le_items Place.ack (fun a => a.envelope.messageID)
      Task.messageID fun x hx a hack => (hfits x hx a hack).1
    rw [hL.acks, hL.items] at hle
    exact hle
  · have hle := Placing.map_marks_le Place.ack (fun a => a.status = .success)
      (fun p => p.executed = true) (fun a => a.envelope.messageID) Task.messageID hfits
    rw [hL.acks, hL.executed] at hle
    exact hle

end Runs

/-! ### A task on its way -/

/-- A task for the modem of `plainAnswer`. -/
def wipeTask : Task :=
  ⟨lit "t1", .deleteAllSMS, Router.jsonICCID (lit "89490200000123456789")⟩

/-- A host that knows its payload. -/
def wipeHost : Router.Host := .ofSIM (lit "89490200000123456789")

/-- A gateway with one modem. -/
abbrev wipeGateway :=
  (gatewaySystem wipeHost Tunnel.sampleConfig fun _ : Unit => Worker.plain).recorded

/-- Its start. -/
abbrev wipeStart := wipeGateway.start ⟨.new (fun _ _ => none) .empty, []⟩ entry

/-- The answers in a run: a task is read, and nothing fails. -/
def taskAnswer (task : Task) : (c : Call Unit) → c.Ans :=
  answerWith
    (fun
      | .readMessage _ => some (.task task)
      | c => Tunnel.sampleAnswer c)
    (plainAnswer (.task ⟨task, 0⟩) none .active) (some ⟨(), 1⟩)

/-- The worker starts, the tunnel connects, and the reader reads the task and dispatches it. -/
def dispatchMoves (task : Task) : List OneModemMove :=
  workerStart (taskAnswer task) ++ tunnelStart (taskAnswer task) ++
    sessionCalls (taskAnswer task) .reader 4

/-- The worker executes the task, and acknowledges it. -/
theorem tasks_once_executed :
    ∃ c, wipeGateway.Reach wipeStart c ∧ executedTasks c.state.history = [wipeTask] ∧
      (ackIDs ((acksPushed c.state.history).filter fun a => a.status = .success)).length = 1 ∧
      (executedTasks c.state.history).Subperm (tasksRead c.state.history) ∧
      (ackIDs (acksPushed c.state.history)).Subperm (taskIDs (tasksRead c.state.history)) ∧
      (ackIDs ((acksPushed c.state.history).filter fun a => a.status = .success)).Subperm
        (taskIDs (executedTasks c.state.history)) := by
  have hplay : (wipeGateway.play wipeStart
      (dispatchMoves wipeTask ++
        callsWith (taskAnswer wipeTask) 7 (.modem () .supervisor))).map (fun c =>
        (executedTasks c.state.history,
          (ackIDs ((acksPushed c.state.history).filter fun a => a.status = .success)).length)) =
      some ([wipeTask], 1) := by
    decide +kernel
  obtain ⟨c, hc, hres⟩ := Option.map_eq_some_iff.mp hplay
  obtain ⟨hexecuted, hsuccess⟩ := Prod.mk.inj hres
  have hreach := System.reach_of_play hc
  exact ⟨c, hreach, hexecuted, hsuccess, tasks_once hreach⟩

end SmsGate.Gateway
