import PgMimic.Connection
import PgMimic.WireLayout
import PgMimic.Lib.Overlay

/-!
# The start-up negotiation

`_negotiate_startup` reads untagged packets: encryption requests, which it declines, then
the StartupMessage, told apart from them by the version code. A version 3 with a minor
number, or an extension request among the parameters, is answered by
NegotiateProtocolVersion. Here the client has sent all its bytes beforehand; waiting for
the answer to an encryption request first would not change one of them.
-/

namespace PgMimic.Startup

open Wire (cstring readCstring packInt32 NulFree)
open Overlay (latest)

abbrev Text := List Char

def SSL_REQUEST_CODE : Int := 80877103
def CANCEL_REQUEST_CODE : Int := 80877102
def GSSENC_REQUEST_CODE : Int := 80877104

def PROTOCOL_MAJOR : Int := 3
def PROTOCOL_MINOR : Int := 0
def PROTOCOL_VERSION : Int := PROTOCOL_MAJOR * 2 ^ 16 + PROTOCOL_MINOR

def PROTOCOL_EXTENSION_PREFIX : Text := ['_', 'p', 'q', '_', '.']

def MAX_STARTUP_PACKET_LENGTH : Int := 10000

/-- How the negotiation ends without an answer. -/
inductive Failure where
  | connectionClosed
  /-- A `ProtocolViolation`. -/
  | refused (e : PgError)
  /-- The payload does not parse. -/
  | malformed
deriving DecidableEq

/-- `_check_length`: the error it raises, if it raises one. -/
def checkLength (length minimum maximum : Int) (what : String) : Option PgError :=
  if length < minimum then
    some ⟨"08P01", "invalid " ++ what ++ " length " ++ toString length ++ ": must be at least " ++
      toString minimum ++ ", counting the length itself", []⟩
  else if maximum < length then
    some ⟨"08P01", "invalid " ++ what ++ " length " ++ toString length ++ ": exceeds the " ++
      toString maximum ++ "-byte maximum", []⟩
  else none

/-- `read_startup_packet` once the header has been read. -/
def readStartupBody (maxMessageSize length code : Int) (unread : List UInt8) :
    Except Failure ((Int × List UInt8) × List UInt8) :=
  match checkLength length 8 (min MAX_STARTUP_PACKET_LENGTH maxMessageSize) "startup packet" with
  | some e => .error (.refused e)
  | none =>
    let remaining := (length - 8).toNat
    if remaining ≤ unread.length then
      .ok ((code, unread.take remaining), unread.drop remaining)
    else .error .connectionClosed

/-- `read_startup_packet`: the code and the payload, and the bytes left. -/
def readStartupPacket (maxMessageSize : Int) :
    List UInt8 → Except Failure ((Int × List UInt8) × List UInt8)
  | a :: b :: c :: d :: e :: f :: g :: h :: unread =>
    readStartupBody maxMessageSize (Stream.unpackInt32 a b c d) (Stream.unpackInt32 e f g h) unread
  | _ => .error .connectionClosed

/-- The loop of `parse_startup_message`, with the rounds it may take. -/
def parsePairs (payload : List UInt8) : Nat → Int → Dict Text Text → Option (Dict Text Text)
  | 0, _, _ => none
  | rounds + 1, offset, params =>
    if offset < payload.length ∧ payload[offset.toNat]? ≠ some 0 then do
      let (key, offset) ← readCstring payload offset
      let (value, offset) ← readCstring payload offset
      parsePairs payload rounds offset (params.set key value)
    else some params

/-- `parse_startup_message`. Each round moves the offset, so there are no more of them than
bytes. -/
def parseStartupMessage (payload : List UInt8) : Option (Dict Text Text) :=
  parsePairs payload (payload.length + 1) 0 ∅

/-- `parse_cancel_request`. -/
def parseCancelRequest (payload : List UInt8) : Option (Int × Int) := do
  let pid ← Wire.unpackInt32 payload 0
  let secret ← Wire.unpackInt32 payload 4
  some (pid, secret)

/-- `make_negotiate_protocol_version`. -/
def makeNegotiateProtocolVersion (version : Int) (unrecognizedOptions : List Text) : List UInt8 :=
  let payload := packInt32 version ++ packInt32 unrecognizedOptions.length ++
    unrecognizedOptions.flatMap cstring
  0x76 :: (packInt32 (payload.length + 4) ++ payload)

structure StartupRequest where
  protocolVersion : Int
  params : Dict Text Text
deriving DecidableEq

inductive Answer where
  | startup (request : StartupRequest)
  /-- The backend to cancel has been looked up, and the stream closed. -/
  | cancelled (pid secret : Int)
deriving DecidableEq

/-- `name.startswith(PROTOCOL_EXTENSION_PREFIX)`. -/
def isExtension (name : Text) : Bool := PROTOCOL_EXTENSION_PREFIX.isPrefixOf name

def unsupportedProtocol (major minor : Int) : PgError :=
  ⟨"0A000", "unsupported frontend protocol " ++ toString major ++ "." ++ toString minor ++
    ": server supports " ++ toString PROTOCOL_MAJOR ++ ".0 to " ++ toString PROTOCOL_MAJOR ++ "." ++
    toString PROTOCOL_MINOR, []⟩

/-- `_negotiate_startup` after the encryption requests: what it writes, and how it ends. -/
def answerStartup (code : Int) (payload : List UInt8) : List UInt8 × Except Failure Answer :=
  if code = CANCEL_REQUEST_CODE then
    match parseCancelRequest payload with
    | some (pid, secret) => ([], .ok (.cancelled pid secret))
    | none => ([], .error .malformed)
  else
    let major := code / 2 ^ 16
    let minor := code % 2 ^ 16
    if major ≠ PROTOCOL_MAJOR then ([], .error (.refused (unsupportedProtocol major minor)))
    else
      match parseStartupMessage payload with
      | none => ([], .error .malformed)
      | some params =>
        let extensions := params.keys.filter isExtension
        let params := extensions.foldl Dict.erase params
        (if PROTOCOL_MINOR < minor ∨ extensions ≠ [] then
            makeNegotiateProtocolVersion PROTOCOL_VERSION extensions
          else [],
          .ok (.startup ⟨code, params⟩))

/-- `_negotiate_startup`: what it writes, how it ends, and what it leaves unread. -/
def negotiateStartup (maxMessageSize : Int) (unread : List UInt8) :
    List UInt8 × Except Failure (Answer × List UInt8) :=
  match readStartupPacket maxMessageSize unread with
  | .error failure => ([], .error failure)
  | .ok ((code, payload), unread) =>
    if code = SSL_REQUEST_CODE ∨ code = GSSENC_REQUEST_CODE then
      match readStartupPacket maxMessageSize unread with
      | .error failure => ([0x4E], .error failure)
      | .ok ((code, payload), unread) =>
        let (written, answer) := answerStartup code payload
        (0x4E :: written, answer.map fun a => (a, unread))
    else
      let (written, answer) := answerStartup code payload
      (written, answer.map fun a => (a, unread))

/-! ## What a client opens with -/

inductive Encryption where
  | ssl
  | gssenc
deriving DecidableEq

def Encryption.code : Encryption → Int
  | .ssl => SSL_REQUEST_CODE
  | .gssenc => GSSENC_REQUEST_CODE

/-- A packet: its length, its code, its payload. -/
def packet (code : Int) (payload : List UInt8) : List UInt8 :=
  packInt32 (payload.length + 8) ++ (packInt32 code ++ payload)

def pairs (params : List (Text × Text)) : List UInt8 :=
  params.flatMap fun p => cstring p.1 ++ cstring p.2

/-- The encryption requests of a client, the minor version it asks for, its parameters. -/
structure Opening where
  requests : List Encryption
  minor : Nat
  params : List (Text × Text)

namespace Opening

def bytes (o : Opening) : List UInt8 :=
  (o.requests.flatMap fun r => packet r.code []) ++
    packet (PROTOCOL_VERSION + o.minor) (pairs o.params ++ [0])

structure Conforms (maxMessageSize : Int) (o : Opening) : Prop where
  requests : o.requests.Nodup
  minor : o.minor < 2 ^ 16
  names : ∀ p ∈ o.params, p.1 ≠ [] ∧ NulFree p.1
  values : ∀ p ∈ o.params, NulFree p.2
  size : ((pairs o.params).length + 9 : Int) ≤ min MAX_STARTUP_PACKET_LENGTH maxMessageSize

/-- One 'N' for each encryption request, NegotiateProtocolVersion where there is something
to negotiate, and the parameters that are no extension requests. -/
def Answered (o : Opening) (later : List UInt8)
    (result : List UInt8 × Except Failure (Answer × List UInt8)) : Prop :=
  ∃ extensions request, extensions.Nodup ∧
    (∀ name, name ∈ extensions ↔ isExtension name = true ∧ name ∈ o.params.map Prod.fst) ∧
    result = (List.replicate o.requests.length 0x4E ++
      (if 0 < o.minor ∨ extensions ≠ [] then
        makeNegotiateProtocolVersion PROTOCOL_VERSION extensions else []),
      .ok (.startup request, later)) ∧
    request.protocolVersion = PROTOCOL_VERSION + o.minor ∧
    ∀ name, request.params.get? name = if isExtension name then none else latest o.params name

end Opening

/-! ## Reading the packets -/

theorem checkLength_of_fits {n : Nat} {maxMessageSize : Int}
    (size : (n + 8 : Int) ≤ min MAX_STARTUP_PACKET_LENGTH maxMessageSize) :
    checkLength (n + 8) 8 (min MAX_STARTUP_PACKET_LENGTH maxMessageSize) "startup packet" =
      none := by
  rw [checkLength, if_neg (by omega), if_neg (by omega)]

theorem readStartupBody_of_fits {maxMessageSize : Int} (code : Int) {payload : List UInt8}
    (later : List UInt8)
    (size : (payload.length + 8 : Int) ≤ min MAX_STARTUP_PACKET_LENGTH maxMessageSize) :
    readStartupBody maxMessageSize (payload.length + 8) code (payload ++ later) =
      .ok ((code, payload), later) := by
  have remaining : ((payload.length + 8 : Int) - 8).toNat = payload.length := by omega
  have inside : payload.length ≤ (payload ++ later).length := by
    rw [List.length_append]
    omega
  rw [readStartupBody, checkLength_of_fits size]
  simp only [remaining, if_pos inside, List.take_left, List.drop_left]

/-- A packet within the limit is read, whatever follows it. -/
theorem readStartupPacket_packet {maxMessageSize code : Int} {payload : List UInt8}
    (later : List UInt8) (range : 0 ≤ code ∧ code < 2 ^ 31)
    (size : (payload.length + 8 : Int) ≤ min MAX_STARTUP_PACKET_LENGTH maxMessageSize) :
    readStartupPacket maxMessageSize (packet code payload ++ later) =
      .ok ((code, payload), later) := by
  have bounded : (payload.length + 8 : Int) ≤ 10000 := by
    have limit : MAX_STARTUP_PACKET_LENGTH = 10000 := rfl
    omega
  obtain ⟨a, b, c, d, packed, value⟩ := Wire.unpackInt32_packInt32 (payload.length + 8)
  obtain ⟨e, f, g, h, packed', value'⟩ := Wire.unpackInt32_packInt32 code
  have length : Stream.unpackInt32 a b c d = payload.length + 8 := by
    rw [value]
    split_ifs <;> omega
  have same : Stream.unpackInt32 e f g h = code := by
    rw [value']
    split_ifs <;> omega
  rw [packet, packed, packed']
  change readStartupBody maxMessageSize (Stream.unpackInt32 a b c d)
    (Stream.unpackInt32 e f g h) (payload ++ later) = _
  rw [length, same]
  exact readStartupBody_of_fits code later size

section Pairs

variable {payload rest : List UInt8} {offset : Int}

theorem getElem?_of_stands {b : UInt8} (h : Offsets.Stands payload offset (b :: rest)) :
    offset < payload.length ∧ payload[offset.toNat]? = some b := by
  obtain ⟨front, rfl, rfl⟩ := h
  constructor
  · rw [List.length_append, List.length_cons]
    omega
  · simp

/-- The first byte of a name is not the one the loop ends at. -/
theorem cstring_cons {text : Text} (nonempty : text ≠ []) (free : NulFree text) :
    ∃ b bytes, cstring text = b :: bytes ∧ b ≠ 0 := by
  cases hbytes : Utf8.encode text with
  | nil =>
    have empty := Utf8.completed_encode text
    rw [hbytes] at empty
    exact False.elim (nonempty empty.symm)
  | cons b bytes =>
    refine ⟨b, bytes ++ [0], by rw [cstring, hbytes]; rfl, ?_⟩
    rintro rfl
    have member : (0 : UInt8) ∈ Utf8.encode text := by
      rw [hbytes]
      exact List.mem_cons_self ..
    obtain ⟨c, inside, zero⟩ := Utf8.zero_mem_encode_iff.mp member
    exact free c inside zero

/-- The pairs are assigned in their order. -/
theorem parsePairs_of_stands {params : List (Text × Text)} {rounds : Nat}
    {assigned : Dict Text Text} (names : ∀ p ∈ params, p.1 ≠ [] ∧ NulFree p.1)
    (values : ∀ p ∈ params, NulFree p.2) (enough : params.length < rounds)
    (h : Offsets.Stands payload offset (pairs params ++ 0 :: rest)) :
    parsePairs payload rounds offset assigned =
      some (params.foldl (fun d p => d.set p.1 p.2) assigned) := by
  induction params generalizing offset rounds assigned with
  | nil =>
    obtain ⟨rounds, rfl⟩ := Nat.exists_eq_succ_of_ne_zero (Nat.ne_of_gt enough)
    obtain ⟨_, ends⟩ := getElem?_of_stands h
    rw [parsePairs, if_neg (fun go => go.2 ends)]
    rfl
  | cons p params ih =>
    obtain ⟨rounds, rfl⟩ := Nat.exists_eq_succ_of_ne_zero (Nat.ne_of_gt (Nat.zero_lt_of_lt enough))
    obtain ⟨nonempty, free⟩ := names p (List.mem_cons_self ..)
    rw [pairs, List.flatMap_cons, List.append_assoc, List.append_assoc] at h
    obtain ⟨b, bytes, starts, nonzero⟩ := cstring_cons nonempty free
    have goes : offset < payload.length ∧ payload[offset.toNat]? ≠ some 0 := by
      rw [starts] at h
      obtain ⟨inside, first⟩ := getElem?_of_stands h
      refine ⟨inside, ?_⟩
      rw [first]
      intro same
      exact nonzero (Option.some.inj same)
    obtain ⟨atValue, key, h⟩ := Wire.readCstring_of_stands free h
    obtain ⟨next, value, h⟩ :=
      Wire.readCstring_of_stands (values p (List.mem_cons_self ..)) h
    rw [List.length_cons] at enough
    have others : parsePairs payload rounds next (assigned.set p.1 p.2) =
        some (params.foldl (fun d p => d.set p.1 p.2) (assigned.set p.1 p.2)) :=
      ih (fun q member => names q (List.mem_cons_of_mem p member))
        (fun q member => values q (List.mem_cons_of_mem p member))
        (Nat.lt_of_succ_lt_succ enough) h
    rw [parsePairs, if_pos goes]
    simp only [key, value, Option.bind_eq_bind, Option.bind_some, others, List.foldl_cons]

end Pairs

theorem length_le_pairs (params : List (Text × Text)) : params.length ≤ (pairs params).length := by
  induction params with
  | nil => simp
  | cons p params ih =>
    rw [pairs, List.flatMap_cons]
    simp only [pairs, cstring, List.length_append, List.length_cons] at ih ⊢
    omega

theorem parseStartupMessage_pairs {params : List (Text × Text)}
    (names : ∀ p ∈ params, p.1 ≠ [] ∧ NulFree p.1) (values : ∀ p ∈ params, NulFree p.2) :
    parseStartupMessage (pairs params ++ [0]) =
      some (params.foldl (fun d p => d.set p.1 p.2) ∅) := by
  have enough : params.length < (pairs params ++ [0]).length + 1 := by
    have few := length_le_pairs params
    rw [List.length_append]
    omega
  exact parsePairs_of_stands names values enough (Offsets.stands_start _)

/-! ## The parameters -/

/-- The last value of a repeated name wins. -/
theorem get?_foldl_set (params : List (Text × Text)) (d : Dict Text Text) (name : Text) :
    (params.foldl (fun d p => d.set p.1 p.2) d).get? name =
      (latest params name).or (d.get? name) := by
  induction params generalizing d with
  | nil => rfl
  | cons p params ih =>
    rw [List.foldl_cons, ih, Dict.get?_set, latest]
    by_cases here : name = p.1
    · cases latest params name <;> simp [here]
    · cases latest params name <;> simp [here, Ne.symm here]

theorem latest_isSome_iff (params : List (Text × Text)) (name : Text) :
    (latest params name).isSome ↔ name ∈ params.map Prod.fst := by
  induction params with
  | nil => simp [latest]
  | cons p params ih =>
    rw [List.map_cons, List.mem_cons, ← ih, latest]
    by_cases here : name = p.1
    · cases latest params name <;> simp [here]
    · cases latest params name <;> simp [here, Ne.symm here]

theorem get?_foldl_erase (names : List Text) (d : Dict Text Text) (name : Text) :
    (names.foldl Dict.erase d).get? name = if name ∈ names then none else d.get? name := by
  induction names generalizing d with
  | nil => simp
  | cons first names ih =>
    rw [List.foldl_cons, ih, Dict.get?_erase]
    by_cases here : name = first
    · simp [here]
    · simp [here]

/-- What a StartupMessage is answered with once the encryption requests are out of the way. -/
theorem answered_of_startup {maxMessageSize : Int} {o : Opening}
    (conforms : o.Conforms maxMessageSize)
    (later : List UInt8) : o.Answered later
      (List.replicate o.requests.length 0x4E ++
          (answerStartup (PROTOCOL_VERSION + o.minor) (pairs o.params ++ [0])).1,
        (answerStartup (PROTOCOL_VERSION + o.minor) (pairs o.params ++ [0])).2.map
          fun a => (a, later)) := by
  have small := conforms.minor
  have version : PROTOCOL_VERSION = 196608 := rfl
  have uncancelled : ¬ (PROTOCOL_VERSION + (o.minor : Int) = CANCEL_REQUEST_CODE) := by
    have code : CANCEL_REQUEST_CODE = 80877102 := rfl
    omega
  have major : (PROTOCOL_VERSION + (o.minor : Int)) / 2 ^ 16 = PROTOCOL_MAJOR := by
    have three : PROTOCOL_MAJOR = 3 := rfl
    omega
  have minor : (PROTOCOL_VERSION + (o.minor : Int)) % 2 ^ 16 = o.minor := by omega
  have newer : PROTOCOL_MINOR < (o.minor : Int) ↔ 0 < o.minor := by
    have zero : PROTOCOL_MINOR = 0 := rfl
    omega
  have parsed := parseStartupMessage_pairs conforms.names conforms.values
  set params := o.params.foldl (fun d p => d.set p.1 p.2) (∅ : Dict Text Text) with hparams
  have reads (name : Text) : params.get? name = latest o.params name := by
    rw [hparams, get?_foldl_set, Dict.get?_empty, Option.or_none]
  have keys (name : Text) : name ∈ params.keys ↔ name ∈ o.params.map Prod.fst :=
    Dict.mem_keys_update.trans (or_iff_left List.not_mem_nil)
  have extensions (name : Text) : name ∈ params.keys.filter isExtension ↔
      isExtension name = true ∧ name ∈ o.params.map Prod.fst := by
    rw [List.mem_filter, keys, and_comm]
  refine ⟨params.keys.filter isExtension,
    ⟨PROTOCOL_VERSION + o.minor, (params.keys.filter isExtension).foldl Dict.erase params⟩,
    params.distinct.filter _, extensions, ?_, rfl, ?_⟩
  · simp only [answerStartup, if_neg uncancelled, major, minor, ne_eq, not_true_eq_false, if_false,
      parsed, newer]
    rfl
  · intro name
    change ((params.keys.filter isExtension).foldl Dict.erase params).get? name = _
    rw [get?_foldl_erase, reads]
    by_cases extension : isExtension name = true
    · by_cases sent : name ∈ o.params.map Prod.fst
      · rw [if_pos ((extensions name).mpr ⟨extension, sent⟩), if_pos extension]
      · have absent : latest o.params name = none := by
          rw [← Option.not_isSome_iff_eq_none, latest_isSome_iff]
          exact sent
        rw [absent, ite_self, if_pos extension]
    · rw [if_neg (fun member => extension ((extensions name).mp member).1), if_neg extension]

/-- Read as a version, an encryption request is none the server speaks. -/
theorem answerStartup_request (r : Encryption) :
    ∃ e, answerStartup r.code [] = ([], .error (.refused e)) := by
  cases r with
  | ssl => exact ⟨_, rfl⟩
  | gssenc => exact ⟨_, rfl⟩

theorem Encryption.code_cases (r : Encryption) :
    r.code = SSL_REQUEST_CODE ∨ r.code = GSSENC_REQUEST_CODE := by
  cases r with
  | ssl => exact Or.inl rfl
  | gssenc => exact Or.inr rfl

theorem Encryption.code_range (r : Encryption) : 0 ≤ r.code ∧ r.code < 2 ^ 31 := by
  cases r with
  | ssl => decide
  | gssenc => decide

/-- A version 3 is no encryption request. -/
theorem version_plain {minor : Nat} (small : minor < 2 ^ 16) :
    ¬ (PROTOCOL_VERSION + (minor : Int) = SSL_REQUEST_CODE ∨
      PROTOCOL_VERSION + (minor : Int) = GSSENC_REQUEST_CODE) := by
  have version : PROTOCOL_VERSION = 196608 := rfl
  have ssl : SSL_REQUEST_CODE = 80877103 := rfl
  have gssenc : GSSENC_REQUEST_CODE = 80877104 := rfl
  omega

/-- `_negotiate_startup` where the first packet is an encryption request. -/
theorem negotiateStartup_request {maxMessageSize code : Int} {unread payload later : List UInt8}
    {r : Encryption}
    (first : readStartupPacket maxMessageSize (packet r.code [] ++ unread) = .ok ((r.code, []), unread))
    (second : readStartupPacket maxMessageSize unread = .ok ((code, payload), later)) :
    negotiateStartup maxMessageSize (packet r.code [] ++ unread) =
      (0x4E :: (answerStartup code payload).1,
        (answerStartup code payload).2.map fun a => (a, later)) := by
  rw [negotiateStartup, first]
  simp only [if_pos r.code_cases, second]

theorem negotiateStartup_plain {maxMessageSize code : Int} {unread payload later : List UInt8}
    (first : readStartupPacket maxMessageSize unread = .ok ((code, payload), later))
    (plain : ¬ (code = SSL_REQUEST_CODE ∨ code = GSSENC_REQUEST_CODE)) :
    negotiateStartup maxMessageSize unread =
      ((answerStartup code payload).1,
        (answerStartup code payload).2.map fun a => (a, later)) := by
  rw [negotiateStartup, first]
  simp only [if_neg plain]

/-- A conforming opening is answered as it should be unless it asks for encryption twice. -/
theorem negotiateStartup_answered_iff {maxMessageSize : Int} {o : Opening}
    (conforms : o.Conforms maxMessageSize) (later : List UInt8) :
    o.Answered later (negotiateStartup maxMessageSize (o.bytes ++ later)) ↔
      o.requests.length ≤ 1 := by
  have small := conforms.minor
  have version : PROTOCOL_VERSION = 196608 := rfl
  have size := conforms.size
  have request (r : Encryption) (rest : List UInt8) :
      readStartupPacket maxMessageSize (packet r.code [] ++ rest) = .ok ((r.code, []), rest) := by
    apply readStartupPacket_packet rest r.code_range
    rw [List.length_nil]
    omega
  have startup : readStartupPacket maxMessageSize
      (packet (PROTOCOL_VERSION + o.minor) (pairs o.params ++ [0]) ++ later) =
        .ok ((PROTOCOL_VERSION + o.minor, pairs o.params ++ [0]), later) := by
    apply readStartupPacket_packet later (by omega)
    rw [List.length_append, List.length_singleton]
    omega
  have answered := answered_of_startup conforms later
  cases hrequests : o.requests with
  | nil =>
    refine iff_of_true ?_ (Nat.zero_le 1)
    rw [Opening.bytes, hrequests, List.flatMap_nil, List.nil_append,
      negotiateStartup_plain startup (version_plain small)]
    rwa [hrequests] at answered
  | cons r requests =>
    cases requests with
    | nil =>
      refine iff_of_true ?_ (Nat.le_refl 1)
      rw [Opening.bytes, hrequests, List.flatMap_singleton, List.append_assoc,
        negotiateStartup_request (request r _) startup]
      rwa [hrequests] at answered
    | cons r' requests =>
      refine iff_of_false ?_ (by simp)
      obtain ⟨e, refused⟩ := answerStartup_request r'
      rw [Opening.bytes, hrequests, List.flatMap_cons, List.flatMap_cons, List.append_assoc,
        List.append_assoc, List.append_assoc, negotiateStartup_request (request r _) (request r' _),
        refused]
      rintro ⟨extensions, asked, _, _, result, _⟩
      cases (Prod.mk.inj result).2

/-- What libpq opens with when it prefers either encryption: GSSAPI first, then TLS. -/
def bothRequests : Opening := ⟨[.gssenc, .ssl], 0, [(['u', 's', 'e', 'r'], ['a'])]⟩

theorem bothRequests_conforms : bothRequests.Conforms 65536 where
  requests := by decide
  minor := by decide
  names := by
    simp only [bothRequests, List.mem_singleton, forall_eq]
    exact ⟨by decide, by decide⟩
  values := by
    simp only [bothRequests, List.mem_singleton, forall_eq]
    decide
  size := by decide

/-- The second request is taken for a protocol version. -/
theorem bothRequests_refused : ∃ o : Opening, o.Conforms 65536 ∧
    ¬ o.Answered [] (negotiateStartup 65536 (o.bytes ++ [])) := by
  refine ⟨bothRequests, bothRequests_conforms, ?_⟩
  rintro ⟨extensions, asked, _, _, result, _⟩
  have ends : (negotiateStartup 65536 (bothRequests.bytes ++ [])).2.isOk = false := by decide
  rw [result] at ends
  cases ends

/-- One request, a newer minor version, an extension, and a name given twice. -/
def newerClient : Opening :=
  ⟨[.ssl], 2, [(['u', 's', 'e', 'r'], ['a']), (['_', 'p', 'q', '_', '.', 'x'], ['1']),
    (['u', 's', 'e', 'r'], ['b'])]⟩

theorem newerClient_answered :
    newerClient.Answered [0x51] (negotiateStartup 65536 (newerClient.bytes ++ [0x51])) := by
  have conforms : newerClient.Conforms 65536 := by
    refine ⟨by decide, by decide, ?_, ?_, by decide⟩
    · simp only [newerClient, List.mem_cons, List.not_mem_nil, or_false]
      rintro p (rfl | rfl | rfl) <;> exact ⟨by decide, by decide⟩
    · simp only [newerClient, List.mem_cons, List.not_mem_nil, or_false]
      rintro p (rfl | rfl | rfl) <;> decide
  exact (negotiateStartup_answered_iff conforms [0x51]).mpr (by decide)

end PgMimic.Startup
