/-
Exchanges on the serial port (`SerialLink._exchange`, `tools/calibration/server.py`).

An exchange writes one numbered line and reads until a line answers it.  What it has read
beyond that line is kept for the next exchange.  The port and the clock come as events: what
`os.write` and `os.read` return, and when the deadline passes.

`json.loads` is a parameter: what the server sees of the object it returns, or the text of
its exception.

* `exchange` — one call;
* `session` — calls in a row, up to the first that fails or is still waiting;
* `session_lines` — whatever the pieces in which replies arrive, a session finds for each
  request the first line left that is its answer.
-/
import Base101.CalibrationServer
import Base101.LineFraming

namespace SerialExchange

open LineFraming

/-- What the server sees of a reply. -/
structure ReplyObject (R : Type) where
  /-- The value of `id`, as it compares with a number. -/
  id : Option ℚ
  /-- The value of `ok`, if it is a truth value. -/
  ok : Option Bool
  body : R

/-- `json.loads`: an exception, an object, or another value. -/
abbrev Decoder (R : Type) := List UInt8 → Except String (Option (ReplyObject R))

inductive ExchangeError
  | writeTimeout
  /-- Malformed JSON, invalid UTF-8. -/
  | undecodable (text : String)
  | invalidReply
  | responseTimeout
  | disconnected
  | tooLong
deriving DecidableEq

def ExchangeError.text : ExchangeError → String
  | .writeTimeout => "serial write timeout"
  | .undecodable text => text
  | .invalidReply => "invalid protocol reply"
  | .responseTimeout => "serial response timeout"
  | .disconnected => "serial disconnected"
  | .tooLong => "serial response too long"

/-- What `os.write` does after `select`. -/
inductive WriteEvent
  | wrote (n : ℕ)
  | blocked
  | timeout

/-- What `os.read` does after `select`. -/
inductive ReadEvent
  | chunk (bytes : List UInt8)
  | blocked
  | timeout

/-- The part of `SerialLink` that exchanges use. -/
structure Link (R : Type) where
  requestSequence : ℕ
  buffer : List UInt8
  latest : Option R
  recording : Bool
  samples : List R
  recordingFull : Bool

/-- A reply with its `ok`, an exception, or `none` while the call has not returned. -/
abbrev Outcome (R : Type) := Option (Except ExchangeError (Bool × R))

section Model

variable {R : Type} (decode : Decoder R)

/-- The bytes of the command line. -/
def outgoingBytes (sequence : ℕ) (command : List Char) : List UInt8 :=
  (CalibrationServer.outgoing sequence command ++ ['\n']).map fun c => UInt8.ofNat c.toNat

/-- The writing loop: what is left to write, or a timeout. -/
def write : List UInt8 → List WriteEvent → Except ExchangeError (List UInt8)
  | [], _ => .ok []
  | outgoing, [] => .ok outgoing
  | outgoing, .wrote n :: events => write (outgoing.drop n) events
  | outgoing, .blocked :: events => write outgoing events
  | _, .timeout :: _ => .error .writeTimeout

/-- What a line says: nothing, an answer or an exception. -/
def judge (sequence : ℕ) (line : List UInt8) : Outcome R :=
  match decode line with
  | .error text => some (.error (.undecodable text))
  | .ok none => none
  | .ok (some reply) =>
    if reply.id ≠ some (sequence : ℚ) then none
    else
      match reply.ok with
      | none => some (.error .invalidReply)
      | some ok => some (.ok (ok, reply.body))

/-- The reading loop: what the call returns, the buffer and the events left. -/
def read (sequence : ℕ) : (buffer : List UInt8) → List ReadEvent →
    Outcome R × List UInt8 × List ReadEvent
  | buffer, [] =>
    let (found, left) := feed 10 (judge decode sequence) [] buffer
    (found, left, [])
  | buffer, event :: events =>
    match feed 10 (judge decode sequence) [] buffer with
    | (some found, left) => (some found, left, event :: events)
    | (none, left) =>
      match event with
      | .timeout => (some (.error .responseTimeout), left, events)
      | .blocked => read sequence left events
      | .chunk bytes =>
        if bytes = [] then (some (.error .disconnected), left, events)
        else if 8192 < (left ++ bytes).length then (some (.error .tooLong), left ++ bytes, events)
        else read sequence (left ++ bytes) events

/-- An accepted reply is kept, and recorded. -/
def keepReply (s : Link R) (body : R) : Link R :=
  let s := { s with latest := some body }
  if s.recording then
    let s := { s with samples := s.samples ++ [body] }
    if 30000 ≤ s.samples.length then { s with recording := false, recordingFull := true } else s
  else s

/-- `_exchange`. -/
def exchange (s : Link R) (command : List Char) (writes : List WriteEvent)
    (events : List ReadEvent) : Outcome R × Link R × List ReadEvent :=
  let s := { s with requestSequence := CalibrationServer.nextSequence s.requestSequence }
  match write (outgoingBytes s.requestSequence command) writes with
  | .error error => (some (.error error), s, events)
  | .ok (_ :: _) => (none, s, events)
  | .ok [] =>
    let (found, buffer, events) := read decode s.requestSequence s.buffer events
    let s := { s with buffer }
    match found with
    | some (.ok (true, body)) => (found, keepReply s body, events)
    | _ => (found, s, events)

/-- Exchanges in a row, each with its command and what the port does with it. -/
def session : Link R → List (List Char × List WriteEvent) → List ReadEvent →
    List (Outcome R) × Link R × List ReadEvent
  | s, [], events => ([], s, events)
  | s, (command, writes) :: calls, events =>
    let (outcome, s, events) := exchange decode s command writes events
    match outcome with
    | some (.ok _) =>
      let (outcomes, s, events) := session s calls events
      (outcome :: outcomes, s, events)
    | _ => ([outcome], s, events)

/-! ### Sessions on lines -/

/-- Each request takes the first line left that is its answer. -/
def lineSession : (sequence calls : ℕ) → List (List UInt8) → List (Outcome R)
  | _, 0, _ => []
  | sequence, calls + 1, lines =>
    match firstOf (judge decode (CalibrationServer.nextSequence sequence)) lines with
    | none => [none]
    | some (.error error, _) => [some (.error error)]
    | some (.ok reply, lines) =>
      some (.ok reply) :: lineSession (CalibrationServer.nextSequence sequence) calls lines

/-- The lines that the requests have not taken. -/
def linesLeft : (sequence calls : ℕ) → List (List UInt8) → List (List UInt8)
  | _, 0, lines => lines
  | sequence, calls + 1, lines =>
    match firstOf (judge decode (CalibrationServer.nextSequence sequence)) lines with
    | none => []
    | some (.error _, left) => left
    | some (.ok _, left) => linesLeft (CalibrationServer.nextSequence sequence) calls left

/-- Every command is written whole. -/
def WritesAll : (sequence : ℕ) → List (List Char × List WriteEvent) → Prop
  | _, [] => True
  | sequence, (command, writes) :: calls =>
    write (outgoingBytes (CalibrationServer.nextSequence sequence) command) writes = .ok [] ∧
      WritesAll (CalibrationServer.nextSequence sequence) calls

end Model

/-- The bytes that arrive. -/
def received (events : List ReadEvent) : List UInt8 :=
  events.flatMap fun
    | .chunk bytes => bytes
    | _ => []

/-- The port delivers some bytes, at most as many as asked for, or nothing yet. -/
def ReadEvent.Calm : ReadEvent → Prop
  | .chunk bytes => bytes ≠ [] ∧ bytes.length ≤ 4096
  | .blocked => True
  | .timeout => False

instance : (event : ReadEvent) → Decidable event.Calm
  | .chunk bytes => inferInstanceAs (Decidable (bytes ≠ [] ∧ bytes.length ≤ 4096))
  | .blocked => .isTrue trivial
  | .timeout => .isFalse not_false

/-! ### One exchange -/

section Exchange

variable {R : Type} {s : Link R}

/-- The reading loop finds what it would find in the whole stream, and loses none of it. -/
theorem read_feed (decode : Decoder R) (sequence : ℕ) (buffer : List UInt8)
    (events : List ReadEvent)
    (hcalm : ∀ event ∈ events, event.Calm)
    (hlines : LinesWithin 10 4096 [] (buffer ++ received events)) :
    ∃ left rest, read decode sequence buffer events =
        ((feed 10 (judge decode sequence) [] (buffer ++ received events)).1, left, rest) ∧
      left ++ received rest =
        (feed 10 (judge decode sequence) [] (buffer ++ received events)).2 ∧
      ∀ event ∈ rest, event.Calm := by
  induction events generalizing buffer with
  | nil =>
    rw [read, received, List.flatMap_nil, List.append_nil]
    exact ⟨_, [], rfl, List.append_nil _, hcalm⟩
  | cons event events ih =>
    have hsplit := splitLines_append 10 [] buffer (received (event :: events))
    have hspec := splitLines_spec 10 (List.not_mem_nil (a := (10 : UInt8))) buffer
    rw [feed_append]
    rw [read]
    cases hfeed : feed 10 (judge decode sequence) [] buffer with
    | mk found left =>
      cases found with
      | some found => exact ⟨left, event :: events, rfl, rfl, hcalm⟩
      | none =>
        -- what is left of the buffer is the beginning of a line
        have hleft : (splitLines 10 [] buffer).2 = left := splitLines_of_feed hfeed
        have hnotMem : 10 ∉ left := hleft ▸ hspec.2.2
        have hwithin : LinesWithin 10 4096 left (received (event :: events)) := by
          rw [LinesWithin, hsplit, hleft] at hlines
          exact ⟨fun l hl => hlines.1 l (List.mem_append_right _ hl), hlines.2⟩
        have hstream (stream : List UInt8) :
            LinesWithin 10 4096 [] (left ++ stream) ↔ LinesWithin 10 4096 left stream := by
          rw [LinesWithin, LinesWithin, splitLines_append_of_notMem hnotMem, List.nil_append]
        have hcalm' : ∀ event ∈ events, event.Calm :=
          fun e he => hcalm e (List.mem_cons_of_mem _ he)
        have hfirst := hcalm event (by simp)
        dsimp only
        rw [← feed_of_notMem _ hnotMem]
        cases event with
        | timeout => exact absurd hfirst id
        | blocked => exact ih left hcalm' ((hstream _).mpr hwithin)
        | chunk bytes =>
          obtain ⟨hnonempty, hsmall⟩ := hfirst
          have hroom : ¬8192 < (left ++ bytes).length := by
            have hshort := hwithin.length_le
            rw [List.length_append]
            omega
          have hreceived : received (.chunk bytes :: events) = bytes ++ received events := rfl
          rw [hreceived, ← List.append_assoc]
          dsimp only
          rw [if_neg hnonempty, if_neg hroom]
          refine ih (left ++ bytes) hcalm' ?_
          rw [List.append_assoc, hstream]
          exact hwithin

theorem keepReply_port (s : Link R) (body : R) :
    (keepReply s body).requestSequence = s.requestSequence ∧
      (keepReply s body).buffer = s.buffer := by
  rw [keepReply]
  dsimp only
  split_ifs <;> exact ⟨rfl, rfl⟩

/-- One exchange takes the lines up to the one that answers it. -/
theorem exchange_lines (decode : Decoder R) {command : List Char} {writes : List WriteEvent}
    {events : List ReadEvent} {lines : List (List UInt8)} {rest : List UInt8}
    (hwrites : write (outgoingBytes (CalibrationServer.nextSequence s.requestSequence) command)
      writes = .ok [])
    (hcalm : ∀ event ∈ events, event.Calm)
    (hwithin : LinesWithin 10 4096 [] (s.buffer ++ received events))
    (hsplit : splitLines 10 [] (s.buffer ++ received events) = (lines, rest)) :
    ∃ s' events', exchange decode s command writes events =
        ((firstOf (judge decode (CalibrationServer.nextSequence s.requestSequence)) lines).map
          Prod.fst, s', events') ∧
      s'.requestSequence = CalibrationServer.nextSequence s.requestSequence ∧
      s'.buffer ++ received events' =
        (match firstOf (judge decode (CalibrationServer.nextSequence s.requestSequence)) lines with
        | some (_, left) => joinLines 10 left rest
        | none => rest) ∧
      ∀ event ∈ events', event.Calm := by
  set sequence := CalibrationServer.nextSequence s.requestSequence with hsequence
  obtain ⟨buffer, events', hread, hleft, hcalm'⟩ :=
    read_feed decode sequence s.buffer events hcalm hwithin
  rw [feed_eq, hsplit] at hread hleft
  rw [exchange]
  dsimp only
  rw [← hsequence, hwrites]
  dsimp only
  rw [hread]
  cases hfirst : firstOf (judge decode sequence) lines with
  | none =>
    rw [hfirst] at hleft
    exact ⟨_, events', rfl, rfl, hleft, hcalm'⟩
  | some found =>
    obtain ⟨found, left⟩ := found
    rw [hfirst] at hleft
    dsimp only at hleft ⊢
    match found with
    | .ok (true, body) =>
      refine ⟨_, events', rfl, ?_, ?_, hcalm'⟩
      · exact (keepReply_port _ body).1
      · rw [(keepReply_port _ body).2]
        exact hleft
    | .ok (false, body) => exact ⟨_, events', rfl, rfl, hleft, hcalm'⟩
    | .error error => exact ⟨_, events', rfl, rfl, hleft, hcalm'⟩

end Exchange

/-! ### Sessions -/

section Session

variable {R : Type}

/-- The lines left are the last of those that came. -/
theorem linesLeft_suffix (decode : Decoder R) (sequence calls : ℕ) (lines : List (List UInt8)) :
    linesLeft decode sequence calls lines <:+ lines := by
  induction calls generalizing sequence lines with
  | zero => exact List.suffix_refl lines
  | succ calls ih =>
    rw [linesLeft]
    cases hfirst : firstOf (judge decode (CalibrationServer.nextSequence sequence)) lines with
    | none => exact List.nil_suffix
    | some found =>
      obtain ⟨found, left⟩ := found
      obtain ⟨taken, htaken⟩ := firstOf_suffix hfirst
      have hleft : left <:+ lines := ⟨taken, htaken.symm⟩
      match found with
      | .error _ => exact hleft
      | .ok _ => exact (ih _ left).trans hleft

/-- The last lines of a stream, and its unfinished one, are a stream of those lines. -/
theorem splitLines_left {stream stream' rest : List UInt8} {lines taken left : List (List UInt8)}
    (hsplit : splitLines 10 [] stream = (lines, rest)) (htaken : lines = taken ++ left)
    (hstream : stream' = joinLines 10 left rest) (hwithin : LinesWithin 10 4096 [] stream) :
    splitLines 10 [] stream' = (left, rest) ∧ LinesWithin 10 4096 [] stream' := by
  have hspec := splitLines_spec 10 (List.not_mem_nil (a := (10 : UInt8))) stream
  rw [hsplit] at hspec
  have hleft : ∀ line ∈ left, (10 : UInt8) ∉ line := by
    intro line hline
    exact hspec.2.1 line (htaken ▸ List.mem_append_right _ hline)
  have hsplit' : splitLines 10 [] stream' = (left, rest) := by
    rw [hstream]
    exact splitLines_joinLines hleft hspec.2.2
  refine ⟨hsplit', ?_⟩
  rw [LinesWithin, hsplit] at hwithin
  rw [LinesWithin, hsplit']
  exact ⟨fun l hl => hwithin.1 l (htaken ▸ List.mem_append_right _ hl), hwithin.2⟩

/-- **It does not matter in which pieces the replies arrive.**  If no line is longer than the
firmware's reply buffer, every command is written and no deadline passes, a session returns
what the lines alone determine: each request takes the first line left that answers it.  The
lines after those taken are still there, whole and in order. -/
theorem session_lines (decode : Decoder R) (s : Link R)
    (calls : List (List Char × List WriteEvent)) (events : List ReadEvent)
    (hwrites : WritesAll s.requestSequence calls) (hcalm : ∀ event ∈ events, event.Calm)
    (hwithin : LinesWithin 10 4096 [] (s.buffer ++ received events)) :
    let lines := (splitLines 10 [] (s.buffer ++ received events)).1
    let left := linesLeft decode s.requestSequence calls.length lines
    (session decode s calls events).1 =
        lineSession decode s.requestSequence calls.length lines ∧
      left <:+ lines ∧
      (session decode s calls events).2.1.buffer ++ received (session decode s calls events).2.2 =
        joinLines 10 left (splitLines 10 [] (s.buffer ++ received events)).2 := by
  intro lines left
  refine and_left_comm.mp ⟨linesLeft_suffix decode _ _ lines, ?_⟩
  induction calls generalizing s events with
  | nil =>
    have hspec := splitLines_spec 10 (List.not_mem_nil (a := (10 : UInt8)))
      (s.buffer ++ received events)
    exact ⟨rfl, hspec.1.symm⟩
  | cons call calls ih =>
    obtain ⟨command, writes⟩ := call
    subst left lines
    cases hsplit : splitLines 10 [] (s.buffer ++ received events) with
    | mk lines rest =>
    obtain ⟨s', events', hexchange, hsequence, hbuffer, hcalm'⟩ :=
      exchange_lines decode hwrites.1 hcalm hwithin hsplit
    rw [session, hexchange, List.length_cons, lineSession, linesLeft]
    cases hfirst : firstOf (judge decode (CalibrationServer.nextSequence s.requestSequence))
        lines with
    | none =>
      -- every line has been looked at
      rw [hfirst] at hbuffer
      exact ⟨rfl, hbuffer⟩
    | some found =>
      obtain ⟨found, left⟩ := found
      rw [hfirst] at hbuffer
      obtain ⟨taken, htaken⟩ := firstOf_suffix hfirst
      match found with
      | .error error => exact ⟨rfl, hbuffer⟩
      | .ok reply =>
        -- the rest of the session runs on the lines left
        obtain ⟨hsplit', hwithin'⟩ := splitLines_left hsplit htaken hbuffer hwithin
        obtain ⟨houtcomes, hleft⟩ := ih s' events' (hsequence ▸ hwrites.2) hcalm' hwithin'
        rw [hsplit', hsequence] at houtcomes hleft
        refine ⟨?_, hleft⟩
        dsimp only [Option.map_some]
        rw [houtcomes]

end Session

/-! ### A session to try -/

def bytesOf (text : String) : List UInt8 := text.toList.map fun c => UInt8.ofNat c.toNat

/-- It knows two replies. -/
def sampleDecoder : Decoder ℕ := fun line =>
  if line = bytesOf "\x7b\"id\":1,\"ok\":true\x7d" then .ok (some ⟨some 1, some true, 1⟩)
  else if line = bytesOf "\x7b\"id\":2,\"ok\":false\x7d" then .ok (some ⟨some 2, some false, 2⟩)
  else .error "MCU sent malformed JSON"

/-- The first reply comes in two pieces, the second one with its end and the beginning of a
third. -/
def sampleEvents : List ReadEvent :=
  [.chunk (bytesOf "\x7b\"id\":"), .blocked,
    .chunk (bytesOf "1,\"ok\":true\x7d\n\x7b\"id\":2,\"ok\":false\x7d\n\x7b\"id\"")]

def sampleLink : Link ℕ :=
  { requestSequence := 0, buffer := [], latest := none, recording := false, samples := []
    recordingFull := false }

def sampleCalls : List (List Char × List WriteEvent) :=
  [("hello 2".toList, [.wrote 4, .blocked, .wrote 6]), ("heartbeat".toList, [.wrote 12])]

theorem session_lines_sample :
    let after := session sampleDecoder sampleLink sampleCalls sampleEvents
    after.1 = [some (.ok (true, 1)), some (.ok (false, 2))] ∧
      after.2.1.buffer ++ received after.2.2 = bytesOf "\x7b\"id\"" := by
  intro after
  obtain ⟨houtcomes, -, hleft⟩ := session_lines sampleDecoder sampleLink sampleCalls sampleEvents
    ⟨by decide, by decide, trivial⟩ (by decide) (by decide)
  constructor
  · refine houtcomes.trans ?_
    decide
  · refine hleft.trans ?_
    decide

end SerialExchange
