import PgMimic.Connection
import PgMimic.WireLayout

/-!
# SCRAM authentication

`ScramSha256AuthPlugin` drives the exchange and leaves its content to `scramp`: the
library is a parameter here, and so are the hash functions the keys are derived with.
What is documented of the library is that its server hands a user name to `auth_fn`,
keeps the stored key it is given, and accepts a client-final message exactly if its
proof is one for that key. A proof for the stored key of a password has been computed
from the password.
-/

namespace PgMimic.Scram

open PgMimic.Stream (Message)

abbrev Text := List Char

abbrev Bytes := List UInt8

/-! ## The exchange -/

structure Hashes where
  pbkdf2Hmac : Bytes → Bytes → Nat → Bytes
  hmacSha256 : Bytes → Bytes → Bytes
  sha256 : Bytes → Bytes

def SCRAM_ITERATIONS : Nat := 4096

def clientKeyLabel : Text := ['C', 'l', 'i', 'e', 'n', 't', ' ', 'K', 'e', 'y']
def serverKeyLabel : Text := ['S', 'e', 'r', 'v', 'e', 'r', ' ', 'K', 'e', 'y']

/-- `_derive_scram_credentials`: the stored key and the server key. -/
def deriveScramCredentials (h : Hashes) (password : Text) (salt : Bytes) (iterations : Nat) :
    Bytes × Bytes :=
  let saltedPassword := h.pbkdf2Hmac (Utf8.encode password) salt iterations
  let clientKey := h.hmacSha256 saltedPassword (Utf8.encode clientKeyLabel)
  (h.sha256 clientKey, h.hmacSha256 saltedPassword (Utf8.encode serverKeyLabel))

/-- What `auth_fn` answers. -/
structure Credentials where
  salt : Bytes
  storedKey : Bytes
  serverKey : Bytes
  iterations : Nat

/-- `scramp`: its calls, none where they raise `ScramException`, and the attributes of its
server object. -/
structure Scramp where
  Server : Type
  makeServer : (Text → Credentials) → Server
  setClientFirst : Server → Text → Option Server
  getServerFirst : Server → Option (Text × Server)
  setClientFinal : Server → Text → Option Server
  getServerFinal : Server → Option Text
  authFn : Server → Text → Credentials
  storedKey : Server → Option Bytes
  clientFirstBare : Server → Text
  /-- An assignment to the attribute. -/
  withClientFirstBare : Server → Text → Server
  serverFirst : Server → Text

def SCRAM_USERNAME_PLACEHOLDER : Text := ['p', 'g', '-', 'm', 'i', 'm', 'i', 'c']

/-- `",".join(parts)`. -/
def joined (parts : List Text) : Text := [','].intercalate parts

/-- `_set_client_first`. -/
def setClientFirst (scramp : Scramp) (server : scramp.Server) (clientFirst : Text) :
    Option scramp.Server :=
  let parts := clientFirst.splitOn ','
  if parts.length < 3 ∨ parts[2]? ≠ some ['n', '='] then scramp.setClientFirst server clientFirst
  else
    let patched := joined (parts.take 2 ++ [['n', '='] ++ SCRAM_USERNAME_PLACEHOLDER] ++ parts.drop 3)
    (scramp.setClientFirst server patched).map fun server =>
      scramp.withClientFirstBare server (joined (parts.drop 2))

/-- What leaves `authenticate` other than its result. -/
inductive Raised where
  | pgError (e : PgError)
  | connectionClosed
  /-- A payload that does not parse, or a text that is no UTF-8. -/
  | malformed
deriving DecidableEq

def PASSWORD : Stream.Tag := 0x70
def AUTHENTICATION : Stream.Tag := 0x52

def mechanism : Text := ['S', 'C', 'R', 'A', 'M', '-', 'S', 'H', 'A', '-', '2', '5', '6']

def makeAuthenticationSasl (mechanisms : List Text) : Message :=
  ⟨AUTHENTICATION, Wire.packInt32 10 ++ mechanisms.flatMap Wire.cstring ++ [0]⟩

def makeAuthenticationSaslContinue (data : Bytes) : Message :=
  ⟨AUTHENTICATION, Wire.packInt32 11 ++ data⟩

def makeAuthenticationSaslFinal (data : Bytes) : Message :=
  ⟨AUTHENTICATION, Wire.packInt32 12 ++ data⟩

/-- `parse_sasl_initial_response`. -/
def parseSaslInitialResponse (payload : Bytes) : Option (Text × Bytes) := do
  let (mechanism, offset) ← Wire.readCstring payload 0
  let length ← Wire.unpackInt32 payload offset
  let offset := offset + 4
  if length = -1 then some (mechanism, [])
  else some (mechanism, Offsets.slice payload offset (offset + length))

/-- `await stream.read_message()` where a message of the client's is expected. -/
def readPassword (expected : String) : List Message → Except Raised (Bytes × List Message)
  | [] => .error .connectionClosed
  | ⟨tag, payload⟩ :: later =>
    if tag ≠ PASSWORD then .error (.pgError ⟨"28P01", "expected a " ++ expected, []⟩)
    else .ok (payload, later)

/-- The client-first of a SASLInitialResponse. -/
def decodeClientFirst (payload : Bytes) : Option Text :=
  (parseSaslInitialResponse payload).bind fun response => Utf8.whole response.2

/-- The exchange from the SASLResponse on. -/
def finish (scramp : Scramp) (server : scramp.Server) (messages : List Message) :
    List Message × Except Raised Bool :=
  match readPassword "SASLResponse" messages with
  | .error e => ([], .error e)
  | .ok (payload, _) =>
    match Utf8.whole payload with
    | none => ([], .error .malformed)
    | some clientFinal =>
      match (scramp.setClientFinal server clientFinal).bind scramp.getServerFinal with
      | none => ([], .ok false)
      | some serverFinal => ([makeAuthenticationSaslFinal (Utf8.encode serverFinal)], .ok true)

/-- The exchange from client-first on. -/
def exchange (scramp : Scramp) (server : scramp.Server) (clientFirst : Text)
    (messages : List Message) : List Message × Except Raised Bool :=
  match (setClientFirst scramp server clientFirst).bind scramp.getServerFirst with
  | none => ([], .ok false)
  | some (serverFirst, server) =>
    let (written, result) := finish scramp server messages
    (makeAuthenticationSaslContinue (Utf8.encode serverFirst) :: written, result)

/-- `auth_fn` with the salt that `os.urandom` gives it. -/
def authFn (h : Hashes) (salt : Bytes) (expectedPassword : Text) (_ : Text) : Credentials :=
  let (storedKey, serverKey) := deriveScramCredentials h expectedPassword salt SCRAM_ITERATIONS
  ⟨salt, storedKey, serverKey, SCRAM_ITERATIONS⟩

/-- `authenticate`: what it writes, and its result. -/
def authenticate (h : Hashes) (scramp : Scramp) (salt : Bytes) (getPassword : Text → Option Text)
    (username : Text) (messages : List Message) : List Message × Except Raised Bool :=
  -- unknown user: proceed through the exchange, then fail closed
  let expectedPassword := (getPassword username).getD []
  let server := scramp.makeServer (authFn h salt expectedPassword)
  let challenge := makeAuthenticationSasl [mechanism]
  match readPassword "SASLInitialResponse" messages with
  | .error e => ([challenge], .error e)
  | .ok (payload, messages) =>
    match decodeClientFirst payload with
    | none => ([challenge], .error .malformed)
    | some clientFirst =>
      let (written, result) := exchange scramp server clientFirst messages
      (challenge :: written, result)

/-! ## What is assumed of the library -/

/-- Everything after the gs2 header, the first two fields. -/
def bareOf (clientFirst : Text) : Text := joined ((clientFirst.splitOn ',').drop 2)

/-- `provedKey` is the stored key that the proof of a client-final is one for, given the
client-first-bare and the server-first that the proof signs. -/
structure Scramp.Documented (scramp : Scramp) (provedKey : Text → Text → Text → Option Bytes) :
    Prop where
  made : ∀ f, scramp.authFn (scramp.makeServer f) = f
  clientFirst : ∀ server text later, scramp.setClientFirst server text = some later →
    scramp.clientFirstBare later = bareOf text ∧
      ∃ user, scramp.storedKey later = some (scramp.authFn server user).storedKey
  assigned : ∀ server bare,
    scramp.clientFirstBare (scramp.withClientFirstBare server bare) = bare ∧
      scramp.storedKey (scramp.withClientFirstBare server bare) = scramp.storedKey server
  serverFirst : ∀ server text later, scramp.getServerFirst server = some (text, later) →
    scramp.serverFirst later = text ∧ scramp.clientFirstBare later = scramp.clientFirstBare server ∧
      scramp.storedKey later = scramp.storedKey server
  accepts : ∀ server key clientFinal, scramp.storedKey server = some key →
    (((scramp.setClientFinal server clientFinal).bind scramp.getServerFinal).isSome = true ↔
      provedKey (scramp.clientFirstBare server) (scramp.serverFirst server) clientFinal = some key)

/-- No two passwords have one stored key. -/
def Hashes.Injective (h : Hashes) : Prop :=
  ∀ salt iterations p q, (deriveScramCredentials h p salt iterations).1 =
    (deriveScramCredentials h q salt iterations).1 → p = q

/-! ## What the client proved -/

/-- The texts a proof is about: client-first and client-final as the client sent them,
server-first as it was sent to the client. -/
structure Transcript (messages written : List Message) (clientFirst serverFirst clientFinal : Text) :
    Prop where
  clientFirst : ∃ payload later, readPassword "SASLInitialResponse" messages = .ok (payload, later) ∧
    decodeClientFirst payload = some clientFirst ∧ ∃ payload' later',
      readPassword "SASLResponse" later = .ok (payload', later') ∧
        Utf8.whole payload' = some clientFinal
  serverFirst : written[1]? = some (makeAuthenticationSaslContinue (Utf8.encode serverFirst))

theorem encode_injective {p q : Text} (same : Utf8.encode p = Utf8.encode q) : p = q := by
  have texts := congrArg Utf8.completed same
  rwa [Utf8.completed_encode, Utf8.completed_encode] at texts

theorem Transcript.unique {messages written : List Message} {first server final : Text}
    {first' server' final' : Text} (t : Transcript messages written first server final)
    (t' : Transcript messages written first' server' final') :
    first = first' ∧ server = server' ∧ final = final' := by
  obtain ⟨⟨payload, later, initial, decoded, payload', later', response, text⟩, sent⟩ := t
  obtain ⟨⟨_, _, initial', decoded', _, _, response', text'⟩, sent'⟩ := t'
  obtain ⟨rfl, rfl⟩ := Prod.mk.inj (Except.ok.inj (initial.symm.trans initial'))
  obtain ⟨rfl, rfl⟩ := Prod.mk.inj (Except.ok.inj (response.symm.trans response'))
  have same := Option.some.inj (sent.symm.trans sent')
  simp only [makeAuthenticationSaslContinue, Message.mk.injEq, true_and,
    List.append_cancel_left_eq] at same
  exact ⟨Option.some.inj (decoded.symm.trans decoded'), encode_injective same,
    Option.some.inj (text.symm.trans text')⟩

/-- The client's proof was computed from the password. -/
def ComputedFrom (h : Hashes) (salt : Bytes) (provedKey : Text → Text → Text → Option Bytes)
    (messages written : List Message) (password : Text) : Prop :=
  ∃ clientFirst serverFirst clientFinal,
    Transcript messages written clientFirst serverFirst clientFinal ∧
      provedKey (bareOf clientFirst) serverFirst clientFinal =
        some (deriveScramCredentials h password salt SCRAM_ITERATIONS).1

/-- True is returned only for the password of a known user, and for no other. -/
def FailsClosed (h : Hashes) (scramp : Scramp) (provedKey : Text → Text → Text → Option Bytes)
    (salt : Bytes) (getPassword : Text → Option Text) (username : Text) (messages : List Message) :
    Prop :=
  (authenticate h scramp salt getPassword username messages).2 = .ok true →
    ∃ p, getPassword username = some p ∧ ∀ q, ComputedFrom h salt provedKey messages
      (authenticate h scramp salt getPassword username messages).1 q ↔ q = p

/-! ## When the exchange succeeds -/

section Exchange

variable {h : Hashes} {scramp : Scramp} {provedKey : Text → Text → Text → Option Bytes}
  {salt : Bytes}

/-- However client-first was handed over, the server has the bare part the client sent. -/
theorem setClientFirst_attributes (documented : scramp.Documented provedKey)
    {server later : scramp.Server} {clientFirst : Text}
    (accepted : setClientFirst scramp server clientFirst = some later) :
    scramp.clientFirstBare later = bareOf clientFirst ∧
      ∃ user, scramp.storedKey later = some (scramp.authFn server user).storedKey := by
  by_cases plain : (clientFirst.splitOn ',').length < 3 ∨
      (clientFirst.splitOn ',')[2]? ≠ some ['n', '=']
  · rw [setClientFirst, if_pos plain] at accepted
    exact documented.clientFirst server clientFirst later accepted
  · rw [setClientFirst, if_neg plain] at accepted
    obtain ⟨patched, taken, rfl⟩ := Option.map_eq_some_iff.mp accepted
    obtain ⟨_, user, stored⟩ := documented.clientFirst _ _ _ taken
    obtain ⟨bare, kept⟩ := documented.assigned patched (joined ((clientFirst.splitOn ',').drop 2))
    exact ⟨bare, user, kept.trans stored⟩

theorem finish_true_iff (server : scramp.Server) (messages : List Message) :
    (finish scramp server messages).2 = .ok true ↔
      ∃ payload later clientFinal, readPassword "SASLResponse" messages = .ok (payload, later) ∧
        Utf8.whole payload = some clientFinal ∧
          ((scramp.setClientFinal server clientFinal).bind scramp.getServerFinal).isSome =
            true := by
  rw [finish]
  cases response : readPassword "SASLResponse" messages with
  | error e => simp
  | ok read =>
    obtain ⟨payload, later⟩ := read
    cases text : Utf8.whole payload with
    | none => simp [text]
    | some clientFinal =>
      cases ends : (scramp.setClientFinal server clientFinal).bind scramp.getServerFinal <;>
        simp [text, ends]

/-- Where the library has answered client-first, it has the key it was given. -/
theorem answered_attributes (documented : scramp.Documented provedKey) {password clientFirst : Text}
    {serverFirst : Text} {later : scramp.Server}
    (answered : (setClientFirst scramp (scramp.makeServer (authFn h salt password))
      clientFirst).bind scramp.getServerFirst = some (serverFirst, later)) :
    scramp.clientFirstBare later = bareOf clientFirst ∧ scramp.serverFirst later = serverFirst ∧
      scramp.storedKey later =
        some (deriveScramCredentials h password salt SCRAM_ITERATIONS).1 := by
  obtain ⟨server, first, next⟩ := Option.bind_eq_some_iff.mp answered
  obtain ⟨bare, user, stored⟩ := setClientFirst_attributes documented first
  obtain ⟨sent, bare', stored'⟩ := documented.serverFirst _ _ _ next
  refine ⟨bare'.trans bare, sent, ?_⟩
  rw [stored', stored, documented.made]
  rfl

/-- The exchange succeeds exactly for a proof computed from the password it expects. -/
theorem authenticate_true_iff (documented : scramp.Documented provedKey)
    (getPassword : Text → Option Text) (username : Text) (messages : List Message) :
    (authenticate h scramp salt getPassword username messages).2 = .ok true ↔
      ComputedFrom h salt provedKey messages
        (authenticate h scramp salt getPassword username messages).1
        ((getPassword username).getD []) := by
  constructor
  · intro succeeds
    rw [authenticate] at succeeds ⊢
    cases initial : readPassword "SASLInitialResponse" messages with
    | error e => simp [initial] at succeeds
    | ok read =>
      obtain ⟨payload, later⟩ := read
      cases first : decodeClientFirst payload with
      | none => simp [initial, first] at succeeds
      | some clientFirst =>
        simp only [initial, first] at succeeds ⊢
        cases answered : (setClientFirst scramp (scramp.makeServer
            (authFn h salt ((getPassword username).getD []))) clientFirst).bind
              scramp.getServerFirst with
        | none => simp [exchange, answered] at succeeds
        | some answer =>
          obtain ⟨serverFirst, server⟩ := answer
          simp only [exchange, answered] at succeeds ⊢
          obtain ⟨payload', later', clientFinal, response, final, accepted⟩ :=
            (finish_true_iff server later).mp succeeds
          obtain ⟨bare, sent, stored⟩ := answered_attributes documented answered
          refine ⟨clientFirst, serverFirst, clientFinal, ⟨?_, rfl⟩, ?_⟩
          · exact ⟨payload, later, initial, first, payload', later', response, final⟩
          · have proved := (documented.accepts server _ clientFinal stored).mp accepted
            rwa [bare, sent] at proved
  · rintro ⟨clientFirst, serverFirst, clientFinal, transcript, proved⟩
    obtain ⟨⟨payload, later, initial, first, payload', later', response, final⟩, sent⟩ := transcript
    rw [authenticate] at sent ⊢
    simp only [initial, first] at sent ⊢
    cases answered : (setClientFirst scramp (scramp.makeServer
        (authFn h salt ((getPassword username).getD []))) clientFirst).bind
          scramp.getServerFirst with
    | none => simp [exchange, answered] at sent
    | some answer =>
      obtain ⟨serverFirst', server⟩ := answer
      simp only [exchange, answered, List.getElem?_cons_succ, List.getElem?_cons_zero,
        Option.some.injEq, makeAuthenticationSaslContinue, Message.mk.injEq, true_and,
        List.append_cancel_left_eq] at sent ⊢
      obtain rfl : serverFirst' = serverFirst := encode_injective sent
      obtain ⟨bare, made, stored⟩ := answered_attributes documented answered
      apply (finish_true_iff server later).mpr
      refine ⟨payload', later', clientFinal, response, final, ?_⟩
      apply (documented.accepts server _ clientFinal stored).mpr
      rwa [bare, made]

end Exchange

/-- No exchange but one with the password of a known user succeeds, unless the user is
unknown and the client proves the empty password. -/
theorem failsClosed_iff {h : Hashes} {scramp : Scramp}
    {provedKey : Text → Text → Text → Option Bytes} (documented : scramp.Documented provedKey)
    (injective : h.Injective) (salt : Bytes) (getPassword : Text → Option Text) (username : Text)
    (messages : List Message) :
    FailsClosed h scramp provedKey salt getPassword username messages ↔
      getPassword username ≠ none ∨ ¬ ComputedFrom h salt provedKey messages
        (authenticate h scramp salt getPassword username messages).1 [] := by
  have succeeds := @authenticate_true_iff h scramp provedKey salt documented getPassword username
    messages
  constructor
  · intro closed
    by_contra opened
    rw [not_or, not_not, not_not] at opened
    obtain ⟨unknown, empty⟩ := opened
    rw [unknown, Option.getD_none] at succeeds
    obtain ⟨p, known, _⟩ := closed (succeeds.mpr empty)
    rw [unknown] at known
    cases known
  · intro condition succeeded
    have proved := succeeds.mp succeeded
    cases known : getPassword username with
    | none =>
      rw [known, Option.getD_none] at proved
      rcases condition with known' | unproved
      · exact False.elim (known' known)
      · exact False.elim (unproved proved)
    | some p =>
      rw [known, Option.getD_some] at proved
      refine ⟨p, rfl, fun q => ⟨fun other => ?_, ?_⟩⟩
      · obtain ⟨clientFirst, serverFirst, clientFinal, transcript, key⟩ := proved
        obtain ⟨clientFirst', serverFirst', clientFinal', transcript', key'⟩ := other
        obtain ⟨rfl, rfl, rfl⟩ := transcript.unique transcript'
        rw [key, Option.some.injEq] at key'
        exact (injective salt SCRAM_ITERATIONS p q key').symm
      · rintro rfl
        exact proved

/-! ## A library that keeps what it is told

With the identity for every hash a stored key is the password itself, and the proof of a
client-final is its `p=` field. -/

def plainHashes : Hashes where
  pbkdf2Hmac := fun password _ _ => password
  hmacSha256 := fun key _ => key
  sha256 := fun bytes => bytes

structure PlainServer where
  authFn : Text → Credentials
  storedKey : Option Bytes
  clientFirstBare : Text
  serverFirst : Text

/-- The proof of a client-final. -/
def proofOf (clientFinal : Text) : Option Bytes :=
  match (clientFinal.splitOn ',').getLast? with
  | some ('p' :: '=' :: proof) => some (Utf8.encode proof)
  | _ => none

def plainScramp : Scramp where
  Server := PlainServer
  makeServer := fun f => ⟨f, none, [], []⟩
  setClientFirst := fun server text =>
    some { server with
      storedKey := some (server.authFn ((bareOf text).drop 2)).storedKey
      clientFirstBare := bareOf text }
  getServerFirst := fun server =>
    some (['i', '=', '1'], { server with serverFirst := ['i', '=', '1'] })
  setClientFinal := fun server clientFinal =>
    if server.storedKey = proofOf clientFinal then some server else none
  getServerFinal := fun _ => some ['v', '=']
  authFn := PlainServer.authFn
  storedKey := PlainServer.storedKey
  clientFirstBare := PlainServer.clientFirstBare
  withClientFirstBare := fun server bare => { server with clientFirstBare := bare }
  serverFirst := PlainServer.serverFirst

theorem plainScramp_documented :
    plainScramp.Documented fun _ _ clientFinal => proofOf clientFinal where
  made := fun _ => rfl
  clientFirst := by
    rintro server text later taken
    obtain rfl := Option.some.inj taken
    exact ⟨rfl, _, rfl⟩
  assigned := fun _ _ => ⟨rfl, rfl⟩
  serverFirst := by
    rintro server text later answered
    obtain ⟨rfl, rfl⟩ := Prod.mk.inj (Option.some.inj answered)
    exact ⟨rfl, rfl, rfl⟩
  accepts := by
    rintro (server : PlainServer) key clientFinal stored
    change server.storedKey = some key at stored
    change ((if server.storedKey = proofOf clientFinal then some server else none).bind
      fun _ : PlainServer => some ['v', '=']).isSome = true ↔ proofOf clientFinal = some key
    rw [stored]
    by_cases proved : some key = proofOf clientFinal
    · rw [if_pos proved]
      exact iff_of_true rfl proved.symm
    · rw [if_neg proved]
      exact iff_of_false Bool.false_ne_true (Ne.symm proved)

theorem plainHashes_injective : plainHashes.Injective :=
  fun _ _ _ _ same => encode_injective same

/-- `SASLInitialResponse` with the client-first `n,,n=,r=c`, and the client-final
`c=biws,p=` with the proof. -/
def clientMessages (proof : Text) : List Message :=
  [⟨PASSWORD, Wire.cstring mechanism ++ Wire.packInt32 9 ++
      Utf8.encode ['n', ',', ',', 'n', '=', ',', 'r', '=', 'c']⟩,
    ⟨PASSWORD, Utf8.encode (['c', '=', 'b', 'i', 'w', 's', ',', 'p', '='] ++ proof)⟩]

/-- The empty password is no password of a user that is known. -/
theorem knownUser_failsClosed :
    FailsClosed plainHashes plainScramp (fun _ _ clientFinal => proofOf clientFinal) []
      (fun _ => some ['s']) ['u'] (clientMessages ['s']) :=
  (failsClosed_iff plainScramp_documented plainHashes_injective [] (fun _ => some ['s']) ['u']
    (clientMessages ['s'])).mpr (Or.inl (by simp))

/-- A user that is unknown is let in by the proof of the empty password. -/
theorem unknownUser_authenticated :
    ¬ FailsClosed plainHashes plainScramp (fun _ _ clientFinal => proofOf clientFinal) []
      (fun _ => none) ['u'] (clientMessages []) := by
  intro closed
  have succeeds : (authenticate plainHashes plainScramp [] (fun _ => none) ['u']
      (clientMessages [])).2 = .ok true := by decide
  obtain ⟨p, known, _⟩ := closed succeeds
  cases known

end PgMimic.Scram
