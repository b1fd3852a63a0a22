import SmsGate.At.Equiv.Port
import SmsGate.Prog.Service

/-!
# What a call of `Execute` does to the port

The goroutine that owns a serializer calls `Execute` and `ExecuteSend` one after the other.  Each of
these calls is a run of the reader and the goroutine, next to a modem that sends what it likes.  A
port that is closed or gone takes no more.

* `Kept`: the port is closed or gone only if something has closed it or if it was lost;
* `Since`: what a call of `Execute` has done so far;
* `Sound.execute`: what it has done when it returns, by the error that it returns.
-/

namespace SmsGate.At.Serializer

open Go Go.Strings

/-! ### How far a call is -/

namespace CallPhase

/-- The command of a call of `Execute` is written. -/
def wrote : CallPhase → Bool
  | awaiting _ _ _ | expired | returned _ _ => true
  | failed .abandoned | failed .shut | gone .abandoned | gone .shut => true
  | _ => false

/-- It has failed before. -/
def wroteNothing : CallPhase → Bool
  | failed .refused | failed .unwritten | gone .refused | gone .unwritten => true
  | _ => false

end CallPhase

/-! ### The invariant -/

/-- A goroutine has written these bytes. -/
def Wrote (data : List UInt8) (past : History Unit) : Prop :=
  ∃ t w, .call t (.write data) true w ∈ past

/-- A port that was there has not taken these bytes. -/
def Refused (data : List UInt8) (past : History Unit) : Prop :=
  ∃ t w, .call t (.write data) false w ∈ past ∧ w.ended = false

/-- Nobody has closed the port. -/
def Unclosed (past : History Unit) : Prop := ∀ x ∈ past, isClose x = false

theorem unclosed_cons {x : Event Unit} {past : History Unit} :
    Unclosed (x :: past) ↔ isClose x = false ∧ Unclosed past := List.forall_mem_cons

/-- What is closed or gone was closed or lost, and what was closed is gone. -/
structure Kept (s : World) (past : History Unit) (r : ReaderStage) : Prop where
  port : PortInv (PortGone past) s r
  closes : s.ended = false → Unclosed past

/-- What has happened since a call of `Execute` began, on a port that had ended iff `gone`. -/
structure Since (data : List UInt8) (gone : Bool) (base new : History Unit) (s : World)
    (k : CallPhase) : Prop where
  writes : ∀ data', Wrote data' new → data' = data
  gone : gone → s.ended ∧ ¬ Wrote data new
  wrote : k.wrote → Wrote data new ∧ Unclosed base
  unclosed : k.calm → Unclosed new
  shut : k.calm = false → s.ended
  refused : k.wroteNothing → Refused data new ∨ PortGone (new ++ base)

section

variable {mayEmit : World → List UInt8 → Bool} {s s' : World} {past base new : History Unit}
  {r : ReaderStage} {k : CallPhase} {c : Call} {a : c.Ans} {data : List UInt8} {gone : Bool}

/-- Only a `Close` ends a port. -/
theorem ended_of_exec (hc : c ≠ .close) (hexec : s.exec c a = some s') : s'.ended = s.ended := by
  refine view_of_exec (f := World.ended) ?_ hexec
  cases c with
  | close => exact absurd rfl hc
  | _ => simp [Call.Leaves]

/-- What has ended does not begin again. -/
theorem ended_mono_exec (hexec : s.exec c a = some s') (hended : s.ended) : s'.ended := by
  by_cases hc : c = .close
  · subst hc
    cases hexec
    rfl
  · rw [ended_of_exec hc hexec]
    exact hended

theorem isClose_eq_false {t : Thread Unit} (hc : c ≠ .close) :
    isClose (.call t c a s : Event Unit) = false := by
  cases c with
  | close => exact absurd rfl hc
  | _ => rfl

namespace Kept

theorem start (hopen : s.Open) : Kept s [] .scanning :=
  ⟨.start hopen, fun _ _ hx => absurd hx List.not_mem_nil⟩

theorem closes_call {t : Thread Unit} (hinv : Kept s past r) (hexec : s.exec c a = some s')
    (hended : s'.ended = false) : Unclosed (.call t c a s :: past) := by
  have hc : c ≠ .close := by
    rintro rfl
    cases hexec
    cases hended
  rw [ended_of_exec hc hexec] at hended
  exact unclosed_cons.mpr ⟨isClose_eq_false hc, hinv.closes hended⟩

theorem reader (hinv : Kept s past r) (hallow : r.Allows c) (hexec : s.exec c a = some s') :
    Kept s' (.call .reader c a s :: past) (r.next c a) := by
  refine ⟨(hinv.port.mono portGone_cons).reader (fun hlong => ?_) hallow hexec,
    hinv.closes_call hexec⟩
  exact ⟨_, List.mem_cons_self, .inr hlong⟩

theorem caller (hinv : Kept s past r) (hc : c.ofCaller) (hexec : s.exec c a = some s') :
    Kept s' (.call (.caller ()) c a s :: past) r := by
  refine ⟨(hinv.port.mono portGone_cons).caller ?_ hc hexec, hinv.closes_call hexec⟩
  rintro rfl
  exact ⟨_, List.mem_cons_self, .inl rfl⟩

theorem outer {v : Outer} (hinv : Kept s past r) (hstep : v.step mayEmit s = some s') :
    Kept s' (.env v s :: past) r := by
  refine ⟨(hinv.port.mono portGone_cons).outer ?_ hstep, fun hended => ?_⟩
  · rintro rfl
    exact ⟨_, List.mem_cons_self, .inr rfl⟩
  · refine unclosed_cons.mpr ⟨rfl, hinv.closes ?_⟩
    rw [Bool.eq_false_iff] at hended ⊢
    exact fun h => hended ((grows_outer hstep).1.ended h)

end Kept

/-! ### One call of `Execute` -/

theorem wrote_cons {x : Event Unit} {data : List UInt8} (h : Wrote data new) :
    Wrote data (x :: new) := by
  obtain ⟨t, w, hmem⟩ := h
  exact ⟨t, w, List.mem_cons_of_mem x hmem⟩

theorem wrote_of_cons {x : Event Unit}
    (hwrite : ∀ t data w (ok : Bool), x ≠ .call t (.write data) ok w)
    (h : Wrote data (x :: new)) : Wrote data new := by
  obtain ⟨t, w, hmem⟩ := h
  rcases List.mem_cons.mp hmem with h | hmem
  · exact absurd h.symm (hwrite t data w true)
  · exact ⟨t, w, hmem⟩

theorem not_wrote_nil : ¬ Wrote data [] := by
  rintro ⟨t, w, h⟩
  exact absurd h List.not_mem_nil

namespace Since

theorem start : Since data s.ended base [] s .outside := by
  refine ⟨fun _ h => absurd h not_wrote_nil, fun hended => ⟨hended, not_wrote_nil⟩, fun h => ?_,
    fun _ x hx => absurd hx List.not_mem_nil, fun h => ?_, fun h => ?_⟩
  · cases h
  · cases h
  · cases h

/-- What is no write and no `Close`. -/
theorem other {x : Event Unit} {k' : CallPhase} (hinv : Since data gone base new s k)
    (hwrite : ∀ t data' w (ok : Bool), x ≠ .call t (.write data') ok w) (hclose : isClose x = false)
    (hended : s.ended → s'.ended) (hwrote : k'.wrote → k.wrote) (hcalm : k'.calm = k.calm)
    (hrefused : k'.wroteNothing → k.wroteNothing ∨ PortGone (x :: (new ++ base))) :
    Since data gone base (x :: new) s' k' := by
  refine ⟨fun data' h => hinv.writes data' (wrote_of_cons hwrite h), fun hgone => ?_, fun hk => ?_,
    fun hk => ?_, fun hk => hended (hinv.shut (hcalm.symm.trans hk)), fun hk => ?_⟩
  · exact ⟨hended (hinv.gone hgone).1, fun h => (hinv.gone hgone).2 (wrote_of_cons hwrite h)⟩
  · exact ⟨wrote_cons (hinv.wrote (hwrote hk)).1, (hinv.wrote (hwrote hk)).2⟩
  · exact unclosed_cons.mpr ⟨hclose, hinv.unclosed (hcalm.symm.trans hk)⟩
  · rcases hrefused hk with h | h
    · rcases hinv.refused h with ⟨t, w, hmem, hw⟩ | h
      · exact .inl ⟨t, w, List.mem_cons_of_mem x hmem, hw⟩
      · exact .inr (portGone_cons h)
    · exact .inr h

/-- What the goroutine has no part in. -/
theorem beside {x : Event Unit} (hinv : Since data gone base new s k)
    (hwrite : ∀ t data' w (ok : Bool), x ≠ .call t (.write data') ok w) (hclose : isClose x = false)
    (hended : s.ended → s'.ended) : Since data gone base (x :: new) s' k :=
  hinv.other hwrite hclose hended id rfl .inl

theorem reader (hinv : Since data gone base new s k) (hallow : r.Allows c)
    (hexec : s.exec c a = some s') : Since data gone base (.call .reader c a s :: new) s' k := by
  refine hinv.beside (fun t data' w ok h => ?_) ?_ (ended_mono_exec hexec)
  · cases h
    exact hallow
  · cases c with
    | close => exact hallow.elim
    | _ => rfl

theorem outer {v : Outer} (hinv : Since data gone base new s k)
    (hstep : v.step mayEmit s = some s') : Since data gone base (.env v s :: new) s' k := by
  refine hinv.beside (fun t data' w ok h => ?_) rfl (grows_outer hstep).1.ended
  cases h

/-- The command is written, or it is not. -/
theorem write {t : Thread Unit} {p : ℕ} {ok : Bool}
    (hinv : Since data gone base new s (.installed p))
    (hkept : Kept s (new ++ base) r) (htakes : portTakes t s (.write data) ok)
    (hexec : s.exec (.write data) ok = some s') :
    Since data gone base (.call t (.write data) ok s :: new) s'
      (CallPhase.next (.installed p) (.write data) ok) := by
  have hunclosed : Unclosed (.call t (.write data) ok s :: new) :=
    unclosed_cons.mpr ⟨rfl, hinv.unclosed rfl⟩
  have hwrites : ∀ data', Wrote data' (.call t (.write data) ok s :: new) → data' = data := by
    rintro data' ⟨t', w, hmem⟩
    rcases List.mem_cons.mp hmem with h | hmem
    · cases h
      rfl
    · exact hinv.writes data' ⟨t', w, hmem⟩
  cases ok with
  | true =>
    -- a port that takes it has not ended
    have hopen : s.ended = false := by
      cases hended : s.ended with
      | false => rfl
      | true =>
        rw [portTakes, hended] at htakes
        cases htakes
    refine ⟨hwrites, fun hgone => ?_, fun _ => ⟨⟨t, s, List.mem_cons_self⟩, fun x hx => ?_⟩,
      fun _ => hunclosed, nofun, nofun⟩
    · have hended := (hinv.gone hgone).1
      rw [hopen] at hended
      cases hended
    · exact hkept.closes hopen x (List.mem_append_right new hx)
  | false =>
    refine ⟨hwrites, fun hgone => ⟨ended_mono_exec hexec (hinv.gone hgone).1, ?_⟩, nofun,
      fun _ => hunclosed, nofun, fun _ => ?_⟩
    · rintro ⟨t', w, hmem⟩
      rcases List.mem_cons.mp hmem with h | hmem
      · cases h
      · exact (hinv.gone hgone).2 ⟨t', w, hmem⟩
    · cases hended : s.ended with
      | false => exact .inl ⟨t, s, List.mem_cons_self, hended⟩
      | true => exact .inr (portGone_cons (hkept.port.ended hended))

/-- The deadline has passed, and the port is closed. -/
theorem close {t : Thread Unit} {u : Unit} (hinv : Since data gone base new s .expired)
    (hexec : s.exec .close u = some s') :
    Since data gone base (.call t .close u s :: new) s' (.failed .shut) := by
  cases hexec
  have hback : ∀ {data'}, Wrote data' (.call t .close u s :: new) → Wrote data' new :=
    wrote_of_cons fun _ _ _ _ h => by cases h
  refine ⟨fun data' h => hinv.writes data' (hback h), fun hgone => ⟨rfl, fun h => ?_⟩, fun _ => ?_,
    nofun, fun _ => rfl, nofun⟩
  · exact (hinv.gone hgone).2 (hback h)
  · exact ⟨wrote_cons (hinv.wrote rfl).1, (hinv.wrote rfl).2⟩

/-- The goroutine keeps the invariant. -/
theorem caller {cmd : List UInt8} {t : Thread Unit} (hinv : Since (cmd ++ crlf) gone base new s k)
    (hkept : Kept s (new ++ base) r) (htakes : portTakes t s c a)
    (hallow : (callProtocol (· = .execute cmd) False).allows k c) (hexec : s.exec c a = some s') :
    Since (cmd ++ crlf) gone base (.call t c a s :: new) s' (k.next c a) := by
  have hended := ended_mono_exec hexec
  cases c with
  | pollClosed =>
    rcases hallow with rfl | ⟨hfalse, -⟩
    · refine hinv.other (fun _ _ _ _ h => by cases h) rfl hended ?_ ?_ fun hk => ?_
      · cases a <;> exact nofun
      · cases a <;> rfl
      · cases a with
        | false => cases hk
        | true =>
          have hclosed := (Option.ite_none_right_eq_some.mp hexec).1
          exact .inr (portGone_cons (hkept.port.closed (.inl hclosed.symm)))
    · exact hfalse.elim
  | install =>
    obtain rfl : k = .opened := hallow
    exact hinv.other (fun _ _ _ _ h => by cases h) rfl hended nofun rfl nofun
  | write data' =>
    rcases hallow with ⟨_, p, rfl, rfl, rfl⟩ | ⟨pduHex, pduLen, p, taken, l, hr, -, -, -⟩
    · exact hinv.write hkept htakes hexec
    · cases hr
  | recv timer p =>
    obtain ⟨_, said, taken, -, rfl, -⟩ := hallow
    refine hinv.other (fun _ _ _ _ h => by cases h) rfl hended (fun _ => rfl) ?_ ?_
    · cases a <;> rfl
    · cases a <;> exact nofun
  | close =>
    obtain rfl : k = .expired := hallow
    exact hinv.close hexec
  | clear =>
    rcases hallow with ⟨why, rfl⟩ | ⟨_, timer, p, said, taken, l, e, -, rfl, -, -⟩
    · refine hinv.other (fun _ _ _ _ h => by cases h) rfl hended ?_ ?_ fun hk => .inl ?_
      · cases why <;> exact id
      · cases why <;> rfl
      · cases why <;> exact hk
    · exact hinv.other (fun _ _ _ _ h => by cases h) rfl hended (fun _ => rfl) rfl nofun
  | _ => exact hallow.elim

end Since

end

/-! ### Calls as runs -/

/-- The reader and one goroutine, on a port that takes no more when it is closed or gone. -/
def portSystem (mayEmit : World → List UInt8 → Bool) :
    System (Thread Unit) World Call Call.Ans Label Exit Unit Outer :=
  (system Unit mayEmit).restrict portTakes

/-- The reader goes on, or it has ended. -/
def ReaderHead (l : Label) (q : ReaderStage × CallPhase) : Prop := l = .reader ∧ q.1 = .scanning

theorem reader_goes_on {q : ReaderStage × CallPhase} (hq : q.1 = .scanning) :
    reader.Obeys (stageProtocol CallPhase) q (Sum.elim ReaderHead fun _ _ => True) := by
  refine (reader_stages hq).mono fun res q' hres => ?_
  cases res with
  | inl l => exact hres
  | inr e => trivial

/-- The protocols of the reader and the goroutine. -/
def attemptProtocols (req : Request) :
    Thread Unit → Protocol Call Call.Ans (ReaderStage × CallPhase)
  | .reader => stageProtocol CallPhase
  | .caller _ => (callProtocol (· = req) False).onSnd ReaderStage

/-- The invariant of a call that began after `base`. -/
structure CallInv (req : Request) (gone : Bool) (base : History Unit) (s : World)
    (past : History Unit) (r : ReaderStage) (k : CallPhase) : Prop where
  kept : Kept s past r
  since : ∃ new, past = new ++ base ∧
    ∀ cmd, req = .execute cmd → Since (cmd ++ crlf) gone base new s k

section

variable {mayEmit : World → List UInt8 → Bool} {req : Request} {gone : Bool} {base : History Unit}

variable (mayEmit req gone base) in
/-- The proof outline of a call. -/
def attemptOutline : System.Outline (portSystem mayEmit).recorded (attemptProtocols req) where
  head t l q :=
    match t with
    | .reader => ReaderHead l q
    | .caller _ => CallHead (· = req) False q.2 l
  final t e q :=
    match t with
    | .reader => True
    | .caller _ => req.Final q.2 e
  inv s q := CallInv req gone base s.state s.history (q .reader).1 (q (.caller ())).2
  block_obeys t l q hhead := by
    cases t with
    | reader =>
      obtain ⟨rfl, hq⟩ := hhead
      exact reader_goes_on hq
    | caller u =>
      refine (block_keeps hhead).onSnd.mono fun res q' hres => ?_
      cases res with
      | inl l' => exact hres
      | inr e =>
        obtain ⟨_, rfl, hfinal⟩ := hres
        exact hfinal
  call_inv t _ s q c a s' hinv hallow hexec := by
    obtain ⟨s₁, hcall, rfl⟩ := System.recorded_exec_iff.mp hexec
    obtain ⟨htakes, hcall⟩ := Option.ite_none_right_eq_some.mp hcall
    obtain ⟨hkept, new, hpast, hsince⟩ := hinv
    cases t with
    | reader =>
      refine ⟨hkept.reader hallow hcall, _ :: new, congrArg _ hpast, fun cmd hreq => ?_⟩
      exact (hsince cmd hreq).reader hallow hcall
    | caller u =>
      refine ⟨hkept.caller (ofCaller_of_allows hallow) hcall, _ :: new, congrArg _ hpast,
        fun cmd hreq => ?_⟩
      subst hreq
      rw [hpast] at hkept
      exact (hsince cmd rfl).caller hkept htakes hallow hcall
  env_inv v s q s' hinv hstep := by
    obtain ⟨s₁, henv, rfl⟩ := System.recorded_env_iff.mp hstep
    obtain ⟨hkept, new, hpast, hsince⟩ := hinv
    refine ⟨hkept.outer henv, _ :: new, congrArg _ hpast, fun cmd hreq => ?_⟩
    exact (hsince cmd hreq).outer henv
  crash_inv _ _ _ _ _ _ hcrash := by cases hcrash

/-- The reader is where its stage says it is. -/
def ReaderAt : System.Local Call Call.Ans Label Exit → ReaderStage × CallPhase → Prop
  | .running p, q => p.Obeys (stageProtocol CallPhase) q (Sum.elim ReaderHead fun _ _ => True)
  | .stopped _, _ => True

/-- A serializer between two calls. -/
def Sound (o : CallConfig Unit) : Prop :=
  ∃ q, ReaderAt (o.threads .reader) q ∧ Kept o.state.state o.state.history q.1

variable {o o' : CallConfig Unit} {ms : Moves Unit} {e : Exit} {l : Label}

theorem Sound.rests (h : Sound o) (mayEmit : World → List UInt8 → Bool) (req : Request) :
    ∃ q, (attemptOutline mayEmit req o.state.state.ended o.state.history).Rests (.caller ()) o q ∧
      (q (.caller ())).2 = .outside := by
  obtain ⟨q, hreader, hkept⟩ := h
  refine ⟨fun t => if t = .reader then q else (.scanning, .outside), ⟨?_, fun t ht => ?_⟩, rfl⟩
  · exact ⟨hkept, [], rfl, fun cmd _ => .start⟩
  · cases t with
    | caller u => exact absurd rfl ht
    | reader =>
      show (attemptOutline mayEmit req o.state.state.ended o.state.history).Follows .reader
        (o.threads .reader) q
      cases hrun : o.threads .reader with
      | running p =>
        rw [hrun] at hreader
        exact hreader
      | stopped e => trivial

theorem sound_of_rests {q : Thread Unit → ReaderStage × CallPhase}
    (h : (attemptOutline mayEmit req gone base).Rests (.caller ()) o q) : Sound o := by
  refine ⟨q .reader, ?_, h.1.kept⟩
  have hreader := h.2 .reader nofun
  cases hrun : o.threads .reader with
  | running p =>
    rw [hrun] at hreader
    exact hreader
  | stopped e => trivial

/-- What a call that is a run of the goroutine keeps, and what has happened since it began. -/
theorem Sound.serve (h : Sound o) (r : Request)
    (hserve : (portSystem mayEmit).recorded.serve (.caller ()) r.label ms o = some (e, o')) :
    Sound o' ∧ ∃ new k, o'.state.history = new ++ o.state.history ∧ r.Final k e ∧
      ∀ cmd, r = .execute cmd →
        Since (cmd ++ crlf) o.state.state.ended o.state.history new o'.state.state k := by
  obtain ⟨q, hrests, hq⟩ := h.rests mayEmit r
  have hhead : CallHead (· = r) False (q (.caller ())).2 r.label :=
    callHead_label rfl (.inl hq)
  obtain ⟨q', hrests', hfinal⟩ := hrests.serve hhead hserve
  obtain ⟨new, hpast, hsince⟩ := hrests'.1.since
  exact ⟨sound_of_rests hrests', new, _, hpast, hfinal, hsince⟩

theorem Sound.executeSend {pduHex : List UInt8} {pduLen : ℕ} (h : Sound o)
    (hserve : (portSystem mayEmit).recorded.serve (.caller ()) (.executeSend pduHex pduLen) ms o =
      some (e, o')) : Sound o' :=
  (h.serve (.send pduHex pduLen) hserve).1

/-- What a call of `Execute` has done, by the error that it returned. -/
structure Attempted (data : List UInt8) (err : Option Err) (o o' : CallConfig Unit)
    (new : History Unit) : Prop where
  history : o'.state.history = new ++ o.state.history
  writes : ∀ data', Wrote data' new → data' = data
  /-- A port that is gone stays so, and takes nothing. -/
  gone : o.state.state.ended → o'.state.state.ended ∧ ¬ Wrote data new
  timeout : ∀ t, err = some (.timeout t) → o'.state.state.ended
  unclosed : (∀ t, err ≠ some (.timeout t)) → Unclosed new
  answered : ∀ t l, err = some (.atError t l) → Unclosed o.state.history
  written : Wrote data new ∨
    Unclosed new ∧ (Refused data new ∨ PortGone o'.state.history)

theorem Sound.execute {cmd : List UInt8} {lines : List Line} {err : Option Err} (h : Sound o)
    (hserve : (portSystem mayEmit).recorded.serve (.caller ()) (.execute cmd) ms o =
      some (.executed lines err, o')) :
    Sound o' ∧ ∃ new, Attempted (cmd ++ crlf) err o o' new := by
  obtain ⟨hsound, new, k, hhistory, hfinal, hsince⟩ := h.serve (.execute cmd) hserve
  have hsince := hsince cmd rfl
  refine ⟨hsound, new, ?_⟩
  rcases hfinal with ⟨why, rfl, hfails⟩ | ⟨timer, said, taken, l, rfl, hwaits, hexits⟩
  · cases hfails
    refine ⟨hhistory, hsince.writes, hsince.gone, fun t ht => ?_, fun ht => ?_, fun t l ht => ?_,
      ?_⟩
    · cases why with
      | shut => exact hsince.shut rfl
      | _ => cases ht
    · cases why with
      | shut => exact absurd rfl (ht cmd)
      | _ => exact hsince.unclosed rfl
    · cases why <;> cases ht
    · cases why with
      | abandoned | shut => exact .inl (hsince.wrote rfl).1
      | refused | unwritten =>
        rw [hhistory]
        exact .inr ⟨hsince.unclosed rfl, hsince.refused rfl⟩
  · cases timer with
    | prompt => exact hwaits.elim
    | timeout =>
      obtain ⟨-, rfl⟩ := Exit.executed.inj hexits.2
      refine ⟨hhistory, hsince.writes, hsince.gone, fun t ht => ?_, fun _ => hsince.unclosed rfl,
        fun _ _ _ => (hsince.wrote rfl).2, .inl (hsince.wrote rfl).1⟩
      rw [Reply.errOf] at ht
      split_ifs at ht
      cases ht

end

end SmsGate.At.Serializer
