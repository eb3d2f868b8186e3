import Mathlib.Algebra.Group.Int.Defs
import Mathlib.Algebra.Group.Nat.Defs
import Mathlib.Data.List.TakeDrop
import Mathlib.Data.Nat.Basic
import PgMimic.Lib.Trace

/-!
# Message framing on one connection

`read_message` waits twice: for the five bytes of the header and for the
payload they announce. What asyncio promises of `readexactly` is built into the
step: bytes leave the buffer only when all of them are there, and a cancelled
wait takes none. The header has left the buffer by the time the payload is
waited for, so a cancel that finds a copy-in there throws five bytes away, and
no other cancel throws any.

A run is one client's bytes arriving in pieces of any size, the command loop
and a running COPY taking turns to call `read_message`, and cancels. A session
may let the cancellation out of its `copy_in` or swallow it and go on.
-/

namespace PgMimic.Stream

def DEFAULT_MAX_MESSAGE_SIZE : Int := 64 * 1024 * 1024

/-- A message type, the byte in front of it. -/
abbrev Tag := UInt8

namespace Tag

def BIND : Tag := 0x42
def CLOSE : Tag := 0x43
def DESCRIBE : Tag := 0x44
def EXECUTE : Tag := 0x45
def FLUSH : Tag := 0x48
def PARSE : Tag := 0x50
def QUERY : Tag := 0x51
def SYNC : Tag := 0x53
def TERMINATE : Tag := 0x58
def COPY_DATA : Tag := 0x64
def COPY_DONE : Tag := 0x63
def COPY_FAIL : Tag := 0x66

end Tag

/-- A tagged message, as `read_message` returns it. -/
structure Message where
  tag : Tag
  payload : List UInt8
deriving DecidableEq, Repr

def packInt32 (value : Nat) : List UInt8 :=
  [UInt8.ofNat (value / 2 ^ 24), UInt8.ofNat (value / 2 ^ 16), UInt8.ofNat (value / 2 ^ 8),
    UInt8.ofNat value]

/-- A big-endian Int32, sign included. -/
def unpackInt32 (a b c d : UInt8) : Int :=
  let unsigned : Nat := a.toNat * 2 ^ 24 + b.toNat * 2 ^ 16 + c.toNat * 2 ^ 8 + d.toNat
  if unsigned < 2 ^ 31 then unsigned else (unsigned : Int) - 2 ^ 32

namespace Message

/-- The tag and the length, which counts itself and not the tag. -/
def header (m : Message) : List UInt8 := m.tag :: packInt32 (m.payload.length + 4)

def frame (m : Message) : List UInt8 := m.header ++ m.payload

/-- The length fits the field that carries it and the limit the server was given. -/
def WellFormed (maxMessageSize : Int) (m : Message) : Prop :=
  m.payload.length + 4 < 2 ^ 31 ∧ (m.payload.length + 4 : Int) ≤ maxMessageSize

instance (maxMessageSize : Int) (m : Message) : Decidable (m.WellFormed maxMessageSize) :=
  inferInstanceAs (Decidable (_ ∧ _))

end Message

def frames (ms : List Message) : List UInt8 := ms.flatMap Message.frame

/-- Where the one read of this connection stands. -/
inductive Reading where
  | idle
  | header
  | payload (tag : Tag) (length : Nat)
deriving DecidableEq, Repr

/-- The bytes this read has taken from the buffer and not yet returned. -/
def Reading.inHand : Reading → List UInt8
  | .idle => []
  | .header => []
  | .payload tag length => tag :: packInt32 (length + 4)

@[simp] theorem Reading.inHand_idle : Reading.idle.inHand = [] := rfl

/-- The bytes this read waits for. -/
def Reading.wants : Reading → Option Nat
  | .idle => none
  | .header => some 5
  | .payload _ length => some length

/-- How far a read gets without waiting: to its next await, to its return, or to
the `ProtocolViolation` of `_check_length`. -/
inductive Progress where
  | waits (reading : Reading)
  | returns (message : Message)
  | refuses
deriving DecidableEq, Repr

/-- `await self._read_exactly(length - 4)`, with what it leaves in the buffer. -/
def readPayload (tag : Tag) (length : Nat) (buffer : List UInt8) : Progress × List UInt8 :=
  if length ≤ buffer.length then (.returns ⟨tag, buffer.take length⟩, buffer.drop length)
  else (.waits (.payload tag length), buffer)

/-- The length check of a tagged message. -/
def checkLength (maxMessageSize length : Int) : Bool := 4 ≤ length ∧ length ≤ maxMessageSize

/-- `read_message` from its start. -/
def readMessage (maxMessageSize : Int) : List UInt8 → Progress × List UInt8
  | tag :: a :: b :: c :: d :: buffer =>
    let length := unpackInt32 a b c d
    if checkLength maxMessageSize length then
      if 4 < length then readPayload tag (length - 4).toNat buffer
      else (.returns ⟨tag, []⟩, buffer)
    else (.refuses, buffer)
  | buffer => (.waits .header, buffer)

/-- `read_message` from the await it stands at, or none where none is going on. -/
def resumeRead (maxMessageSize : Int) : Reading → List UInt8 → Option (Progress × List UInt8)
  | .idle, _ => none
  | .header, buffer => some (readMessage maxMessageSize buffer)
  | .payload tag length, buffer => some (readPayload tag length buffer)

/-- The receiving half of a connection. `wire` is what the client has sent and has
not arrived; `running` is the tag of the command being dispatched. -/
structure Link where
  wire : List UInt8
  buffer : List UInt8
  reading : Reading
  running : Option Tag
  returned : List Message
  ended : Bool
deriving DecidableEq, Repr

inductive Event where
  /-- The next so many bytes arrive. -/
  | arrive (count : Nat)
  /-- The command loop calls `read_message`. -/
  | loopRead
  /-- A COPY FROM STDIN calls `read_message`. -/
  | copyRead
  /-- The read that waits is woken. -/
  | resume
  /-- The command being dispatched returns. -/
  | finish
  /-- A CancelRequest for this connection; the session may swallow the cancellation. -/
  | cancel (swallowed : Bool)
deriving DecidableEq, Repr

namespace Link

/-- Nothing has arrived and the command loop is about to read. -/
def start (sent : List Message) : Link := ⟨frames sent, [], .idle, none, [], false⟩

/-- A read stopped where `progress` says. What the command loop reads it dispatches,
Terminate apart; what a COPY reads stays with the COPY. -/
def settle (l : Link) (progress : Progress) (buffer : List UInt8) : Link :=
  match progress with
  | .waits reading => { l with buffer := buffer, reading := reading }
  | .refuses => { l with buffer := buffer, reading := .idle, running := none, ended := true }
  | .returns m =>
    match l.running with
    | some _ => { l with buffer := buffer, reading := .idle, returned := l.returned ++ [m] }
    | none =>
      if m.tag = Tag.TERMINATE then
        { l with buffer := buffer, reading := .idle, returned := l.returned ++ [m], ended := true }
      else
        { l with buffer := buffer, reading := .idle, returned := l.returned ++ [m],
                 running := some m.tag }

/-- A cancel reaches the task dispatching a command, and whatever that task awaits. -/
def cancel (l : Link) (swallowed : Bool) : Link :=
  match l.running with
  | none => l
  | some tag => { l with reading := .idle, running := if swallowed then some tag else none }

def step (maxMessageSize : Int) (l : Link) : Event → Option Link
  | .arrive count =>
    some { l with wire := l.wire.drop count, buffer := l.buffer ++ l.wire.take count }
  | .loopRead =>
    if l.ended = false ∧ l.running = none ∧ l.reading = .idle then
      let (progress, buffer) := readMessage maxMessageSize l.buffer
      some (l.settle progress buffer)
    else none
  | .copyRead =>
    if (l.running = some Tag.QUERY ∨ l.running = some Tag.EXECUTE) ∧ l.reading = .idle then
      let (progress, buffer) := readMessage maxMessageSize l.buffer
      some (l.settle progress buffer)
    else none
  | .resume =>
    (resumeRead maxMessageSize l.reading l.buffer).map fun (progress, buffer) =>
      l.settle progress buffer
  | .finish =>
    if l.running ≠ none ∧ l.reading = .idle then some { l with running := none } else none
  | .cancel swallowed => some (l.cancel swallowed)

/-- The read waits for bytes that are not there. -/
def Parked (l : Link) : Prop := ∃ n, l.reading.wants = some n ∧ l.buffer.length < n

/-- A command's read has its header and waits for its payload. -/
def MidMessage (l : Link) : Prop := l.running ≠ none ∧ l.reading.inHand ≠ []

/-- What was returned is what was sent so far, and the bytes of the rest are all still
to be read; once all has arrived and the read is left waiting there is no rest. -/
structure Framed (sent : List Message) (l : Link) : Prop where
  kept : ∃ rest, sent = l.returned ++ rest ∧
    frames rest = l.reading.inHand ++ l.buffer ++ l.wire
  complete : l.wire = [] → l.Parked → l.returned = sent

end Link

@[simp] theorem frames_nil : frames [] = [] := rfl

theorem frames_cons (m : Message) (ms : List Message) : frames (m :: ms) = m.frame ++ frames ms :=
  List.flatMap_cons

theorem frames_append (ms ns : List Message) : frames (ms ++ ns) = frames ms ++ frames ns :=
  List.flatMap_append

theorem frame_length (m : Message) : m.frame.length = m.payload.length + 5 := by
  simp only [Message.frame, Message.header, packInt32, List.length_append, List.length_cons,
    List.length_nil]
  omega

theorem unpackInt32_packInt32 {n : Nat} (fits : n < 2 ^ 31) :
    unpackInt32 (UInt8.ofNat (n / 2 ^ 24)) (UInt8.ofNat (n / 2 ^ 16)) (UInt8.ofNat (n / 2 ^ 8))
      (UInt8.ofNat n) = n := by
  have digits : n / 2 ^ 24 % 2 ^ 8 * 2 ^ 24 + n / 2 ^ 16 % 2 ^ 8 * 2 ^ 16 +
      n / 2 ^ 8 % 2 ^ 8 * 2 ^ 8 + n % 2 ^ 8 = n := by omega
  simp only [unpackInt32, UInt8.toNat_ofNat']
  rw [digits, if_pos fits]

/-! ## What a read does with the bytes in front of it -/

/-- The unread bytes are those of the messages still to be returned, the first of
which may have given its header up already. -/
def Stands (rest : List Message) (unread : List UInt8) : Reading → Prop
  | .idle => frames rest = unread
  | .header => frames rest = unread
  | .payload tag length =>
    ∃ m later, rest = m :: later ∧ m.tag = tag ∧ m.payload.length = length ∧
      m.payload ++ frames later = unread

theorem Stands.bytes {rest : List Message} {unread : List UInt8} {reading : Reading}
    (h : Stands rest unread reading) : frames rest = reading.inHand ++ unread := by
  cases reading with
  | idle => exact h
  | header => exact h
  | payload tag length =>
    obtain ⟨m, later, rfl, rfl, rfl, hbytes⟩ := h
    rw [frames_cons, Message.frame, List.append_assoc, hbytes]
    rfl

/-- A read of a well-formed stream is never refused, and returns its first message or
none of it. -/
def Reads (rest : List Message) (wire : List UInt8) : Progress × List UInt8 → Prop
  | (.waits reading, buffer) => Stands rest (buffer ++ wire) reading
  | (.returns m, buffer) => ∃ later, rest = m :: later ∧ frames later = buffer ++ wire
  | (.refuses, _) => False

theorem readPayload_reads {m : Message} {later : List Message} {buffer wire : List UInt8}
    (h : m.payload ++ frames later = buffer ++ wire) :
    Reads (m :: later) wire (readPayload m.tag m.payload.length buffer) := by
  by_cases enough : m.payload.length ≤ buffer.length
  · have front : buffer.take m.payload.length = m.payload := by
      have taken := congrArg (List.take m.payload.length) h
      rw [List.take_left, List.take_append_of_le_length enough] at taken
      exact taken.symm
    have behind : frames later = buffer.drop m.payload.length ++ wire := by
      have dropped := congrArg (List.drop m.payload.length) h
      rw [List.drop_left, List.drop_append_of_le_length enough] at dropped
      exact dropped
    rw [readPayload, if_pos enough]
    exact ⟨later, by rw [front], behind⟩
  · rw [readPayload, if_neg enough]
    exact ⟨m, later, rfl, rfl, rfl, h⟩

theorem checkLength_of_wellFormed {maxMessageSize : Int} {m : Message}
    (h : m.WellFormed maxMessageSize) :
    checkLength maxMessageSize ((m.payload.length + 4 : Nat) : Int) = true := by
  have bound := h.2
  simp only [checkLength, decide_eq_true_eq]
  omega

theorem readMessage_reads {maxMessageSize : Int} {rest : List Message} {buffer wire : List UInt8}
    (wellFormed : ∀ m ∈ rest, m.WellFormed maxMessageSize) (h : frames rest = buffer ++ wire) :
    Reads rest wire (readMessage maxMessageSize buffer) := by
  match buffer, h with
  | [], h => exact h
  | [_], h => exact h
  | [_, _], h => exact h
  | [_, _, _], h => exact h
  | [_, _, _, _], h => exact h
  | tag :: a :: b :: c :: d :: buffer, h =>
    cases rest with
    | nil => cases h
    | cons m later =>
      have fits := wellFormed m (List.mem_cons_self ..)
      rw [frames_cons, Message.frame, Message.header, packInt32] at h
      simp only [List.cons_append, List.nil_append, List.cons.injEq] at h
      obtain ⟨rfl, rfl, rfl, rfl, rfl, hbytes⟩ := h
      simp only [readMessage]
      rw [unpackInt32_packInt32 fits.1, if_pos (checkLength_of_wellFormed fits)]
      by_cases empty : m.payload = []
      · rw [if_neg (by simp [empty])]
        rw [empty] at hbytes
        refine ⟨later, ?_, hbytes⟩
        rw [← empty]
      · have positive : 0 < m.payload.length := List.length_pos_iff.mpr empty
        have length : (((m.payload.length + 4 : Nat) : Int) - 4).toNat = m.payload.length := by
          omega
        rw [if_pos (by omega), length]
        exact readPayload_reads hbytes

theorem resumeRead_reads {maxMessageSize : Int} {rest : List Message} {buffer wire : List UInt8}
    {reading : Reading} {result : Progress × List UInt8}
    (wellFormed : ∀ m ∈ rest, m.WellFormed maxMessageSize)
    (h : Stands rest (buffer ++ wire) reading)
    (resumed : resumeRead maxMessageSize reading buffer = some result) :
    Reads rest wire result := by
  cases reading with
  | idle => cases resumed
  | header =>
    cases resumed
    exact readMessage_reads wellFormed h
  | payload tag length =>
    cases resumed
    obtain ⟨m, later, rfl, rfl, rfl, hbytes⟩ := h
    exact readPayload_reads hbytes

namespace Link

/-- The invariant behind `Framed`: the messages not yet returned are the unread bytes. -/
def Aligned (sent : List Message) (l : Link) : Prop :=
  ∃ rest, sent = l.returned ++ rest ∧ Stands rest (l.buffer ++ l.wire) l.reading

theorem start_aligned (sent : List Message) : (start sent).Aligned sent := ⟨sent, rfl, rfl⟩

theorem Aligned.framed {sent : List Message} {l : Link} (h : l.Aligned sent) : l.Framed sent := by
  obtain ⟨rest, hsent, hstands⟩ := h
  refine ⟨⟨rest, hsent, ?_⟩, ?_⟩
  · rw [hstands.bytes, List.append_assoc]
  · rintro arrived ⟨n, hwants, short⟩
    have none_left : rest = [] := by
      by_contra some_left
      obtain ⟨m, later, rfl⟩ := List.exists_cons_of_ne_nil some_left
      rw [arrived, List.append_nil] at hstands
      cases hreading : l.reading with
      | idle =>
        rw [hreading] at hwants
        cases hwants
      | header =>
        rw [hreading] at hwants hstands
        have five : n = 5 := (Option.some.inj hwants).symm
        have size := congrArg List.length hstands
        rw [frames_cons, List.length_append, frame_length] at size
        omega
      | payload tag length =>
        rw [hreading] at hwants hstands
        obtain ⟨m', later', _, _, hlength, hbytes⟩ := hstands
        have exact_length : n = length := (Option.some.inj hwants).symm
        have size := congrArg List.length hbytes
        rw [List.length_append] at size
        omega
    rw [hsent, none_left, List.append_nil]

theorem settle_aligned {sent rest : List Message} {l : Link} {progress : Progress}
    {buffer : List UInt8} (hsent : sent = l.returned ++ rest)
    (h : Reads rest l.wire (progress, buffer)) : (l.settle progress buffer).Aligned sent := by
  cases progress with
  | waits reading => exact ⟨rest, hsent, h⟩
  | refuses => exact False.elim h
  | returns m =>
    obtain ⟨later, rfl, hbytes⟩ := h
    have shifted : sent = l.returned ++ [m] ++ later := by
      rw [hsent, List.append_assoc, List.singleton_append]
    cases hrunning : l.running with
    | some tag =>
      simp only [settle, hrunning]
      exact ⟨later, shifted, hbytes⟩
    | none =>
      by_cases terminate : m.tag = Tag.TERMINATE
      · simp only [settle, hrunning, if_pos terminate]
        exact ⟨later, shifted, hbytes⟩
      · simp only [settle, hrunning, if_neg terminate]
        exact ⟨later, shifted, hbytes⟩

theorem cancel_aligned {sent : List Message} {l : Link} (swallowed : Bool) (h : l.Aligned sent)
    (between : ¬ l.MidMessage) : (l.cancel swallowed).Aligned sent := by
  cases hrunning : l.running with
  | none => simpa only [cancel, hrunning] using h
  | some tag =>
    obtain ⟨rest, hsent, hstands⟩ := h
    have nothing : l.reading.inHand = [] := by
      by_contra something
      exact between ⟨by rw [hrunning]; exact Option.some_ne_none tag, something⟩
    have bytes := hstands.bytes
    rw [nothing, List.nil_append] at bytes
    simp only [cancel, hrunning]
    exact ⟨rest, hsent, bytes⟩

/-- What one step can do: bytes arrive, a read goes on from where it stands, a command
ends between two reads, or a cancel lands. -/
theorem step_cases {maxMessageSize : Int} {l l' : Link} {e : Event}
    (hstep : l.step maxMessageSize e = some l') :
    (∃ count, l' = { l with wire := l.wire.drop count, buffer := l.buffer ++ l.wire.take count }) ∨
    (∃ result, (l.reading = .idle ∧ result = readMessage maxMessageSize l.buffer ∨
        resumeRead maxMessageSize l.reading l.buffer = some result) ∧
      l' = l.settle result.1 result.2) ∨
    (l.reading = .idle ∧ l' = { l with running := none }) ∨
    ∃ swallowed, e = .cancel swallowed ∧ l' = l.cancel swallowed := by
  cases e with
  | arrive count =>
    cases hstep
    exact Or.inl ⟨count, rfl⟩
  | loopRead =>
    simp only [step, Option.ite_none_right_eq_some, Option.some.injEq] at hstep
    obtain ⟨enabled, rfl⟩ := hstep
    exact Or.inr (Or.inl ⟨_, Or.inl ⟨enabled.2.2, rfl⟩, rfl⟩)
  | copyRead =>
    simp only [step, Option.ite_none_right_eq_some, Option.some.injEq] at hstep
    obtain ⟨enabled, rfl⟩ := hstep
    exact Or.inr (Or.inl ⟨_, Or.inl ⟨enabled.2, rfl⟩, rfl⟩)
  | resume =>
    simp only [step, Option.map_eq_some_iff] at hstep
    obtain ⟨result, resumed, rfl⟩ := hstep
    exact Or.inr (Or.inl ⟨result, Or.inr resumed, rfl⟩)
  | finish =>
    simp only [step, Option.ite_none_right_eq_some, Option.some.injEq] at hstep
    obtain ⟨enabled, rfl⟩ := hstep
    exact Or.inr (Or.inr (Or.inl ⟨enabled.2, rfl⟩))
  | cancel swallowed =>
    cases hstep
    exact Or.inr (Or.inr (Or.inr ⟨swallowed, rfl, rfl⟩))

/-- Every step keeps the messages and the unread bytes aligned, a cancel in the middle
of a message apart. -/
theorem step_aligned {maxMessageSize : Int} {sent : List Message} {u v : Link} {e : Event}
    (wellFormed : ∀ m ∈ sent, m.WellFormed maxMessageSize) (h : u.Aligned sent)
    (between : ∀ swallowed, e = .cancel swallowed → ¬ u.MidMessage)
    (hstep : u.step maxMessageSize e = some v) : v.Aligned sent := by
  obtain ⟨rest, hsent, hstands⟩ := id h
  have remaining : ∀ m ∈ rest, m.WellFormed maxMessageSize := fun m hm =>
    wellFormed m (by rw [hsent]; exact List.mem_append_right _ hm)
  rcases step_cases hstep with ⟨count, rfl⟩ | ⟨result, read, rfl⟩ | ⟨_, rfl⟩ | ⟨swallowed, he, rfl⟩
  · refine ⟨rest, hsent, ?_⟩
    rw [List.append_assoc, List.take_append_drop]
    exact hstands
  · have reads : Reads rest u.wire result := by
      rcases read with ⟨idle, rfl⟩ | resumed
      · rw [idle] at hstands
        exact readMessage_reads remaining hstands
      · exact resumeRead_reads remaining hstands resumed
    exact settle_aligned hsent reads
  · exact ⟨rest, hsent, hstands⟩
  · exact cancel_aligned swallowed h (between swallowed he)

/-! ## The bytes a cancel throws away -/

/-- All the bytes that are somewhere: in a returned message, in hand, or still to be read. -/
def size (l : Link) : Nat :=
  (frames l.returned).length + l.reading.inHand.length + l.buffer.length + l.wire.length

theorem Framed.size_eq {sent : List Message} {l : Link} (h : l.Framed sent) :
    l.size = (frames sent).length := by
  obtain ⟨rest, hsent, hbytes⟩ := h.kept
  rw [hsent, frames_append, hbytes]
  simp only [size, List.length_append]
  omega

/-- The five bytes of the header are in no message and will be in none. -/
theorem cancel_size_lt {l : Link} (swallowed : Bool) (h : l.MidMessage) :
    (l.cancel swallowed).size < l.size := by
  obtain ⟨hrunning, something⟩ := h
  obtain ⟨tag, htag⟩ := Option.ne_none_iff_exists'.mp hrunning
  have positive : 0 < l.reading.inHand.length := List.length_pos_iff.mpr something
  simp only [cancel, htag, size, Reading.inHand_idle, List.length_nil]
  omega

end Link

/-! ## The whole stream -/

/-- The messages come out as they went in, in every state of a run, exactly if no
cancel of the run lands on a command that has a header in hand. -/
theorem messages_framed_iff {maxMessageSize : Int} {sent : List Message} {events : List Event}
    (wellFormed : ∀ m ∈ sent, m.WellFormed maxMessageSize) :
    (∀ t, Trace.Visits (Link.step maxMessageSize) (Link.start sent) events t → t.Framed sent) ↔
      ∀ u swallowed v,
        Trace.Takes (Link.step maxMessageSize) (Link.start sent) events u (.cancel swallowed) v →
          ¬ u.MidMessage := by
  constructor
  · intro framed u swallowed v taken midMessage
    have before := (framed u taken.before).size_eq
    have after := (framed v taken.after).size_eq
    have cancelled : v = u.cancel swallowed := (Option.some.inj taken.possible).symm
    have lost := Link.cancel_size_lt swallowed midMessage
    rw [← cancelled] at lost
    omega
  · intro between t visited
    have aligned : t.Aligned sent := by
      refine Trace.visits_induction (fun l => Link.Aligned sent l) (Link.start_aligned sent)
        ?_ visited
      intro u e v taken hu
      refine Link.step_aligned wellFormed hu ?_ taken.possible
      rintro swallowed rfl
      exact between u swallowed v taken
    exact aligned.framed

/-- `COPY t FROM STDIN`, one row of data, the end of it. -/
def copyIn : List Message :=
  [⟨Tag.QUERY, [67, 79, 80, 89, 32, 116, 32, 70, 82, 79, 77, 32, 83, 84, 68, 73, 78, 0]⟩,
    ⟨Tag.COPY_DATA, [49, 10]⟩, ⟨Tag.COPY_DONE, []⟩]

/-- The cancel arrives with the header of the CopyData read and its payload not there. -/
def copyInCancelled : List Event :=
  [.loopRead, .arrive 23, .resume, .copyRead, .arrive 5, .resume, .cancel false, .arrive 7,
    .loopRead]

theorem copyIn_framed_iff :
    (∀ t, Trace.Visits (Link.step DEFAULT_MAX_MESSAGE_SIZE) (Link.start copyIn) copyInCancelled t →
        t.Framed copyIn) ↔
      ∀ u swallowed v, Trace.Takes (Link.step DEFAULT_MAX_MESSAGE_SIZE) (Link.start copyIn)
        copyInCancelled u (.cancel swallowed) v → ¬ u.MidMessage :=
  messages_framed_iff (by decide)

/-- The payload and the next header are read as one header, whose length is refused. -/
theorem copyIn_loses_header :
    (∀ m ∈ copyIn, m.WellFormed DEFAULT_MAX_MESSAGE_SIZE) ∧
    ∃ t, Trace.Visits (Link.step DEFAULT_MAX_MESSAGE_SIZE) (Link.start copyIn) copyInCancelled t ∧
      t.wire = [] ∧ t.ended = true ∧ t.returned.length = 1 ∧ ¬ t.Framed copyIn := by
  refine ⟨by decide, ⟨[], [0, 4], .idle, none, copyIn.take 1, true⟩,
    Trace.visits_end (by decide), rfl, rfl, rfl, ?_⟩
  intro framed
  have size := framed.size_eq
  revert size
  decide

end PgMimic.Stream
