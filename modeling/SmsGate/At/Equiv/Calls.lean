import SmsGate.At.Equiv.Caller
import SmsGate.At.Equiv.Origin
import SmsGate.Prog.InTurn

/-!
# Commands and callers

A modem that answers each command by some lines and one final result code, in the order of the
commands and with any delay; between them it may send URCs, and it may send its bytes in pieces of
any size.  `expected` are the lines that it sends in answer to the commands that were written so
far.

`busy`, `overtaken` and `Serial` say which calls overlap.  `World.Grows` is what a caller sees of
the reader, the modem and the port.
-/

namespace SmsGate.At.Serializer

open Go Go.Strings

/-! ### A modem that answers -/

/-- What a modem answers to a command.  Lines that are empty or URCs are not part of it: the modem
can send them at any time. -/
structure Reply where
  /-- The intermediate lines. -/
  body : List Line
  final : Line
  body_not_final : ∀ l ∈ body, isFinal l = false
  isFinal_final : isFinal final

namespace Reply

/-- All lines of a reply. -/
def lines (r : Reply) : List Line := r.body ++ [r.final]

/-- The lines up to one that is not intermediate are the whole reply. -/
theorem eq_lines_of_mem {r : Reply} {taken : List Line} {l : Line} (hfront : taken <+: r.lines)
    (hl : l ∈ taken) (hbody : l ∉ r.body) : taken = r.lines := by
  rcases List.prefix_concat_iff.mp hfront with heq | hfront
  · exact heq
  · exact absurd (hfront.subset hl) hbody

end Reply

/-- Whether a write is a command line; a PDU ends in Ctrl+Z. -/
def isCommand (data : List UInt8) : Bool := data.getLast? = some 0x0A

/-- The commands among what was written. -/
def commands (written : List (List UInt8)) : List (List UInt8) := written.filter isCommand

theorem isCommand_append_crlf (cmd : List UInt8) : isCommand (cmd ++ crlf) := by
  have hlast : (cmd ++ crlf).getLast? = some 0x0A := List.getLast?_append_of_ne_nil cmd (by decide)
  exact decide_eq_true hlast

theorem isCommand_command (r : Request) : isCommand r.command := by
  cases r <;> exact isCommand_append_crlf _

theorem isCommand_pduFrame (pduHex : List UInt8) : isCommand (pduFrame pduHex) = false := by
  have hlast : (pduFrame pduHex).getLast? = some 0x1A := List.getLast?_concat
  rw [isCommand, hlast]
  rfl

theorem commands_concat {written : List (List UInt8)} {data : List UInt8} (h : isCommand data) :
    commands (written ++ [data]) = commands written ++ [data] := by
  rw [commands, List.filter_append, List.filter_cons_of_pos h]
  rfl

theorem commands_concat_of_not {written : List (List UInt8)} {data : List UInt8}
    (h : isCommand data = false) : commands (written ++ [data]) = commands written := by
  rw [commands, List.filter_append, List.filter_cons_of_neg (by rw [h]; exact Bool.false_ne_true)]
  exact List.append_nil _

section

variable (reply : ℕ → List UInt8 → Reply)

/-- The lines that answer these commands; the reply can depend on a command and its number. -/
def expected (cmds : List (List UInt8)) : List Line :=
  cmds.zipIdx.flatMap fun p => (reply p.2 p.1).lines

/-- A modem that sends no line before the command that it answers. -/
def replying (s : World) (bytes : List UInt8) : Bool :=
  (answers (s.emitted ++ bytes)).isPrefixOf (expected reply (commands s.written))

/-- A port that is closed or gone takes no more. -/
def portTakes {κ : Type} (_ : Thread κ) (s : World) : (c : Call) → c.Ans → Bool
  | .write _, (ok : Bool) => !(ok && s.ended)
  | _, _ => true

/-- The goroutines on such a port, with such a modem. -/
def callSystem (κ : Type) : System (Thread κ) World Call Call.Ans Label Exit Unit Outer :=
  (system κ (replying reply)).restrict portTakes

/-- The goroutines with what has happened so far. -/
abbrev CallConfig (κ : Type) :=
  System.Config (Thread κ) (System.Recorded (Thread κ) World Call Call.Ans Outer) Call Call.Ans
    Label Exit

/-- Before every caller executes its command. -/
def executeStart {κ : Type} (cmd : κ → List UInt8) : CallConfig κ :=
  (callSystem reply κ).recorded.start ⟨World.idle [] [], []⟩ (entry fun k => .execute (cmd k))

variable {reply}

theorem exec_of_callSystem {κ : Type} {t : Thread κ} {ch : Unit} {s s' : World} {c : Call}
    {a : c.Ans} (h : (callSystem reply κ).exec t ch s c a = some s') :
    portTakes t s c a ∧ s.exec c a = some s' :=
  Option.ite_none_right_eq_some.mp h

theorem expected_concat (cmds : List (List UInt8)) (cmd : List UInt8) :
    expected reply (cmds ++ [cmd]) = expected reply cmds ++ (reply cmds.length cmd).lines := by
  rw [expected, List.zipIdx_append, List.flatMap_append, Nat.zero_add]
  exact congrArg _ (List.append_nil _)

/-- As many final result codes as commands. -/
theorem countP_expected (cmds : List (List UInt8)) :
    (expected reply cmds).countP isFinal = cmds.length := by
  induction cmds using List.reverseRecOn with
  | nil => rfl
  | append_singleton cmds cmd ih =>
    have hbody : (reply cmds.length cmd).body.countP isFinal = 0 :=
      List.countP_eq_zero.mpr fun l hl => by
        rw [(reply cmds.length cmd).body_not_final l hl]
        exact Bool.false_ne_true
    rw [expected_concat, List.countP_append, ih, Reply.lines, List.countP_append, hbody,
      List.countP_singleton, if_pos (reply cmds.length cmd).isFinal_final, List.length_append]
    rfl

end

/-! ### What a history tells -/

section

variable {κ : Type} [DecidableEq κ]

/-- A caller has made a command pending and has not returned since. -/
def busy (k : κ) : History κ → Bool
  | [] => false
  | .call (.caller k') .install _ _ :: past => k' = k || busy k past
  | .call (.caller k') .clear _ _ :: past => k' ≠ k && busy k past
  | _ :: past => busy k past

/-- Another call has returned since a caller looked at `closed`. -/
def overtaken (k : κ) : History κ → Bool
  | [] => false
  | .call (.caller k') .pollClosed _ _ :: past => k' ≠ k && overtaken k past
  | .call (.caller k') .clear _ _ :: past => k' ≠ k || overtaken k past
  | _ :: past => overtaken k past

/-- No command was made pending while another call was under way.  If the reader had stopped by
then, no other call had returned since the caller found it running. -/
def Serial : History κ → Prop
  | [] => True
  | .call (.caller k) .install _ s :: past =>
    (∀ k', k' ≠ k → busy k' past = false) ∧ (s.closed → overtaken k past = false) ∧ Serial past
  | _ :: past => Serial past

/-- The number of the last command that a caller has written. -/
def ownCommand (k : κ) : History κ → Option ℕ
  | [] => none
  | .call (.caller k') (.write data) (true : Bool) s :: past =>
    if k' = k ∧ isCommand data then some (commands s.written).length else ownCommand k past
  | _ :: past => ownCommand k past

/-- Every PDU was written, as long as the port was there. -/
def Lossless : History κ → Prop
  | [] => True
  | .call _ (.write data) (false : Bool) s :: past => (isCommand data ∨ s.ended) ∧ Lossless past
  | _ :: past => Lossless past

variable {k : κ} {past : History κ}

/-- What the reader and the modem do is no part of a call. -/
theorem busy_reader {c : Call} {a : c.Ans} {s : World} :
    busy k (.call .reader c a s :: past) = busy k past := by
  cases c <;> rfl

theorem overtaken_reader {c : Call} {a : c.Ans} {s : World} :
    overtaken k (.call .reader c a s :: past) = overtaken k past := by
  cases c <;> rfl

theorem ownCommand_reader {c : Call} {a : c.Ans} {s : World} :
    ownCommand k (.call .reader c a s :: past) = ownCommand k past := by
  cases c <;> rfl

end

/-! ### Calls one after the other -/

/-- The reader and one goroutine, with what has happened so far. -/
abbrev RequestConfig :=
  System.Config (Thread Unit) (System.Recorded (Thread Unit) World Call Call.Ans Outer) Call
    Call.Ans (System.Turns Label Exit) (List Exit)

/-- The reader, and one goroutine that makes these calls one after the other. -/
def requestEntry (requests : List Request) : Thread Unit → System.Turns Label Exit
  | .reader => ⟨[], [.reader]⟩
  | .caller () => ⟨[], requests.map Request.label⟩

/-- `Execute` has returned what a modem has answered. -/
def answered : Option Err → Bool
  | none | some (.atError _ _) => true
  | _ => false

/-- There are calls of `ExecuteSend` among these. -/
def Sends (calls : Request → Prop) : Prop := ∃ pduHex pduLen, calls (.send pduHex pduLen)

/-- No intermediate line of the reply to a send is one on which `ExecuteSend` returns. -/
def Clean (reply : ℕ → List UInt8 → Reply) : Prop :=
  ∀ n pduLen, ∀ l ∈ (reply n (cmgs pduLen)).body, cutsShort l = false

/-- The line on which a call returns is not intermediate. -/
theorem notMem_body_of_exits {reply : ℕ → List UInt8 → Reply} {r : Request} {timer : Timer}
    {taken : List Line} {l : Line} {e : Exit} {n : ℕ}
    (hclean : ∀ pduHex pduLen, r = .send pduHex pduLen → Clean reply)
    (h : r.Exits timer taken l e) : l ∉ (reply n r.command).body := by
  intro hl
  have hends : isFinal l ∨ (∃ pduHex pduLen, r = .send pduHex pduLen) ∧ cutsShort l := by
    cases r with
    | execute cmd =>
      cases timer with
      | timeout => exact .inl h.1
      | prompt => exact h.elim
    | send pduHex pduLen =>
      cases timer with
      | prompt => exact (ends_of_rejects h.2.1).imp_right fun h => ⟨⟨_, _, rfl⟩, h⟩
      | timeout => exact h.1.imp_right fun h => ⟨⟨_, _, rfl⟩, h⟩
  rcases hends with hfinal | ⟨⟨pduHex, pduLen, rfl⟩, hcuts⟩
  · rw [(reply n r.command).body_not_final l hl] at hfinal
    cases hfinal
  · rw [hclean pduHex pduLen rfl n pduLen l hl] at hcuts
    cases hcuts

/-! ### What a caller sees of the others -/

/-- What the reader, the modem and the port do to what a caller sees. -/
structure World.Grows (s s' : World) : Prop where
  ended : s.ended → s'.ended
  closed : s.closed → s'.closed
  written : s'.written = s.written
  loaded : s.loaded.length ≤ s'.loaded.length
  since : s'.since = s.since
  pending : s'.pending = s.pending
  channels : ∀ p, ∃ lines, s'.linesCh p = s.linesCh p ++ lines ∧ s'.routed p = s.routed p ++ lines
  overflow : s'.overflow = false → s.overflow = false
  eof : s'.scanner.eof = false → s.scanner.eof = false

theorem World.Grows.refl (s : World) : s.Grows s :=
  ⟨id, id, rfl, le_rfl, rfl, rfl, fun _ => ⟨[], by simp⟩, id, id⟩

theorem grows_reader {s s' : World} {r : ReaderStage} {c : Call} {a : c.Ans} (hc : r.Allows c)
    (hexec : s.exec c a = some s') :
    s.Grows s' ∧ s'.emitted = s.emitted ∧ s'.ended = s.ended ∧
      s'.scanner.eof = s.scanner.eof := by
  have hrefl := World.Grows.refl s
  cases c with
  | scan =>
    obtain ⟨⟨token, sc⟩, hscan, hs⟩ := Option.bind_eq_some_iff.mp hexec
    obtain ⟨-, hs⟩ := Option.ite_none_right_eq_some.mp hs
    cases hs
    have heof := Bufio.Scanner.eof_of_scan hscan
    exact ⟨{ hrefl with eof := fun h => heof ▸ h }, rfl, rfl, heof⟩
  | loadPending line =>
    obtain ⟨-, hs⟩ := Option.ite_none_right_eq_some.mp hexec
    cases hs
    refine ⟨{ hrefl with loaded := ?_ }, rfl, rfl, rfl⟩
    dsimp only
    rw [List.length_append]
    exact Nat.le_add_right _ _
  | trySendLine p line =>
    obtain ⟨-, hs⟩ := Option.ite_none_left_eq_some.mp hexec
    split_ifs at hs <;> cases hs
    · refine ⟨{ hrefl with channels := fun p' => ?_ }, rfl, rfl, rfl⟩
      dsimp only
      by_cases hp : p' = p
      · subst hp
        rw [Function.update_self, Function.update_self]
        exact ⟨[line], rfl, rfl⟩
      · rw [Function.update_of_ne hp, Function.update_of_ne hp]
        exact hrefl.channels p'
    · exact ⟨{ hrefl with overflow := nofun }, rfl, rfl, rfl⟩
  | trySendURC line =>
    obtain ⟨-, hs⟩ := Option.ite_none_left_eq_some.mp hexec
    split_ifs at hs <;> cases hs <;> exact ⟨{ hrefl with }, rfl, rfl, rfl⟩
  | tryRecvURC =>
    obtain ⟨-, hs⟩ := Option.ite_none_right_eq_some.mp hexec
    cases hs
    exact ⟨{ hrefl with }, rfl, rfl, rfl⟩
  | closeClosed =>
    cases hexec
    exact ⟨{ hrefl with closed := fun _ => rfl }, rfl, rfl, rfl⟩
  | _ => exact hc.elim

theorem grows_outer {mayEmit : World → List UInt8 → Bool} {s s' : World} {v : Outer}
    (hstep : v.step mayEmit s = some s') :
    s.Grows s' ∧ (s'.scanner.eof = true → s.scanner.eof = true ∨ s.ended = true) ∧
      (s'.emitted = s.emitted ∨
        ∃ bytes, s'.emitted = s.emitted ++ bytes ∧ mayEmit s bytes) := by
  have hrefl := World.Grows.refl s
  cases v with
  | emit bytes =>
    obtain ⟨hmay, hs⟩ := Option.ite_none_right_eq_some.mp hstep
    cases hs
    exact ⟨{ hrefl with }, .inl, .inr ⟨bytes, rfl, hmay⟩⟩
  | fill chunk =>
    obtain ⟨-, hs⟩ := Option.ite_none_right_eq_some.mp hstep
    obtain ⟨sc, hfill, rfl⟩ := Option.map_eq_some_iff.mp hs
    obtain ⟨-, hsc⟩ := Option.ite_none_right_eq_some.mp hfill
    cases hsc
    exact ⟨{ hrefl with }, .inl, .inl rfl⟩
  | fillEnd =>
    obtain ⟨hended, hs⟩ := Option.ite_none_right_eq_some.mp hstep
    obtain ⟨sc, hfinish, rfl⟩ := Option.map_eq_some_iff.mp hs
    obtain ⟨-, hsc⟩ := Option.ite_none_right_eq_some.mp hfinish
    cases hsc
    exact ⟨{ hrefl with eof := nofun }, fun _ => .inr hended, .inl rfl⟩
  | unplug =>
    cases hstep
    exact ⟨{ hrefl with ended := fun _ => rfl }, .inl, .inl rfl⟩
  | takeURC =>
    cases hstep
    exact ⟨{ hrefl with }, .inl, .inl rfl⟩

/-! ### Runs on fixed inputs -/

/-- The answers in a run: what `Scan`, `pending` and a caller's `select` give. -/
def runAnswer (p : ℕ) (token : Option (List UInt8)) (received : Received) : (c : Call) → c.Ans
  | .scan => token
  | .recv _ _ => received
  | .loadPending _ => some p
  | .install => p
  | .trySendURC _ | .trySendLine _ _ | .write _ => true
  | .pollClosed => false
  | .tryRecvURC => none
  | .closeClosed | .clear | .close => ()

/-- The moves of a run. -/
abbrev Moves (κ : Type) := List (System.Move (Thread κ) Call Call.Ans Unit Outer)

/-- A number of calls of one goroutine, up to its next block. -/
def callMoves {κ : Type} (n : ℕ) (t : Thread κ) (answer : (c : Call) → c.Ans) : Moves κ :=
  List.replicate n (.call t () answer) ++ [.jump t]

section

variable {κ : Type} (p : ℕ) (k : κ) (line : Line)

/-- A caller makes its command pending, as number `p`, and writes it. -/
def beginMoves : Moves κ := callMoves 3 (.caller k) (runAnswer p none .timer)

/-- The modem sends bytes, and `Scan` reads them. -/
def emitMoves (bytes : List UInt8) : Moves κ := [.env (.emit bytes), .env (.fill bytes)]

/-- The reader routes a line to command `p`. -/
def routeMoves : Moves κ := callMoves 3 .reader (runAnswer p (some line) .timer)

/-- A caller takes a line and goes on with `n` more calls. -/
def takeMoves (n : ℕ) : Moves κ := callMoves (n + 1) (.caller k) (runAnswer p none (.line line))

end

end SmsGate.At.Serializer
