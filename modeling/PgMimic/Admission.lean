import PgMimic.Handshake

/-!
# Who is let in

What is written and called on a connection, as somebody at the door sees it. A client that does
not know what it is asked for is shown requests and errors; one that does gets the startup burst
and is served; and all of them leave by the same steps.
-/

namespace PgMimic.Handshake

open PgMimic.Copy (Text)
open PgMimic.Dispatch (Written Pushed Thrown W Awaited Runtime Types Session Run fatalError
  lastWords)
open PgMimic.Messages (Backend Bytes)
open PgMimic.Scram (PASSWORD)
open PgMimic.Stream (Message)

variable {σ Value Stmt Portal Cell Param : Type}

/-! ## What the other side sees -/

/-- How far the connection has come. -/
inductive Door where
  | knocking
  /-- Asked for a password. -/
  | asked
  | sasl
  | continued
  | proved
  | granted
  | keyed
  | greeted
  | served (k : Dispatch.Client)
  /-- An error instead of AuthenticationOk; the password was wrong, or something else was. -/
  | refused (denied : Bool)
  | left (verdict : Option Bool)
  | closed (verdict : Option Bool)
  | gone (verdict : Option Bool)

namespace Door

/-- Whether the client was let in, where that was decided. -/
def verdict : Door → Option Bool
  | .granted | .keyed | .greeted | .served _ => some true
  | .refused denied => if denied then some false else none
  | .left verdict | .closed verdict | .gone verdict => verdict
  | _ => none

/-- A client that is still to be let in may be refused. -/
def refusable : Door → Bool
  | .knocking | .asked | .sasl | .continued => true
  | _ => false

def standing : Door → Bool
  | .left _ | .closed _ | .gone _ => false
  | _ => true

/-- A message up to the first ReadyForQuery. -/
def answered (username : Text) : Door → Backend → Option Door
  | .knocking, .authenticationCleartextPassword => some .asked
  | .knocking, .authenticationMd5Password _ => some .asked
  | .knocking, .authenticationSasl _ => some .sasl
  | .sasl, .authenticationSaslContinue _ => some .continued
  | .continued, .authenticationSaslFinal _ => some .proved
  | .knocking, .authenticationOk => some .granted
  | .asked, .authenticationOk => some .granted
  | .proved, .authenticationOk => some .granted
  | .granted, .parameterStatus _ _ => some .granted
  | .granted, .backendKeyData _ _ => some .keyed
  | .keyed, .readyForQuery .I => some .greeted
  | door, .errorResponse fields =>
    if door.refusable then
      some (.refused (decide (Backend.errorResponse fields = fatalError (denial username))))
    else none
  | _, _ => none

/-- Any message. On its way out the session may still push at a client that was let in. -/
def sent (username : Text) (w : Written) : Door → Option Door
  | .served k => (Dispatch.Client.next k w).map Door.served
  | .left (some true) => if w.1.isAsync then some (.left (some true)) else none
  | door => door.answered username w.1

/-- `awaited` is what the client sends once it is let in. -/
def next (username : Text) (awaited : List Awaited) (door : Door) : Entry → Option Door
  | .sent w => door.sent username w
  | .initialised =>
    match door with
    | .greeted => some (.served ⟨awaited, .start⟩)
    | _ => none
  | .left => if door.standing then some (.left door.verdict) else none
  | .closed =>
    match door with
    | .left verdict => some (.closed verdict)
    | _ => none
  | .gone =>
    match door with
    | .closed verdict => some (.gone verdict)
    | _ => none

end Door

/-- A request for a password, the answer to one, or an error: all else is for those who are let
in. -/
def shows : Backend → Bool
  | .authenticationCleartextPassword => false
  | .authenticationMd5Password _ => false
  | .authenticationSasl _ => false
  | .authenticationSaslContinue _ => false
  | .authenticationSaslFinal _ => false
  | .errorResponse _ => false
  | _ => true

def Entry.shows : Entry → Bool
  | .initialised => true
  | .sent w => Handshake.shows w.1
  | _ => false

section Verdicts

variable {username : Text} {awaited : List Awaited} {k k' : Door} {e : Entry}

/-- Nobody who may be refused has been let in. -/
theorem verdict_of_refusable (h : k.refusable = true) : k.verdict = none := by
  cases k <;> first | rfl | cases h

theorem verdict_answered {b : Backend} (moved : k.answered username b = some k')
    (shown : k.verdict = some true ∨ shows b = true) : k'.verdict = some true := by
  rw [Door.answered.eq_def] at moved
  split at moved
  case h_12 fields =>
    split at moved
    case isTrue open_ =>
      rw [verdict_of_refusable open_] at shown
      simp [shows] at shown
    case isFalse => cases moved
  case h_13 => cases moved
  all_goals
    cases moved
    first
      | rfl
      | simp [Door.verdict, shows] at shown

theorem verdict_sent {w : Written} (moved : k.sent username w = some k')
    (shown : k.verdict = some true ∨ shows w.1 = true) : k'.verdict = some true := by
  rw [Door.sent.eq_def] at moved
  split at moved
  case h_1 k =>
    obtain ⟨k', -, rfl⟩ := Option.map_eq_some_iff.mp moved
    rfl
  case h_2 =>
    split at moved
    · cases moved
      rfl
    · cases moved
  case h_3 => exact verdict_answered moved shown

theorem verdict_next (moved : Door.next username awaited k e = some k')
    (shown : k.verdict = some true ∨ e.shows = true) : k'.verdict = some true := by
  have kept (other : e.shows = false) : k.verdict = some true :=
    shown.resolve_right fun shows => Bool.false_ne_true (other.symm.trans shows)
  cases e with
  | sent w => exact verdict_sent moved shown
  | initialised =>
    cases k with
    | greeted =>
      cases moved
      rfl
    | _ => cases moved
  | left =>
    rw [Door.next] at moved
    split at moved
    · cases moved
      exact kept rfl
    · cases moved
  | closed =>
    cases k with
    | left verdict =>
      cases moved
      exact kept rfl
    | _ => cases moved
  | gone =>
    cases k with
    | closed verdict =>
      cases moved
      exact kept rfl
    | _ => cases moved

/-- Whoever is shown anything but requests and errors has been let in. -/
theorem verdict_run {log : List Entry}
    (ran : Trace.run (Door.next username awaited) k log = some k')
    (shown : k.verdict = some true ∨ ∃ e ∈ log, e.shows = true) : k'.verdict = some true := by
  induction log generalizing k with
  | nil =>
    obtain rfl := Option.some.inj ran
    exact shown.resolve_right fun ⟨e, inside, _⟩ => List.not_mem_nil inside
  | cons e log ih =>
    obtain ⟨next, moved, later⟩ := Option.bind_eq_some_iff.mp ran
    refine ih later ?_
    rcases shown with earlier | ⟨e', inside, shows⟩
    · exact .inl (verdict_next moved (.inl earlier))
    · rcases List.mem_cons.mp inside with rfl | behind
      · exact .inl (verdict_next moved (.inr shows))
      · exact .inr ⟨e', behind, shows⟩

end Verdicts

/-! ## Authentication -/

section Leads

variable {rt : Runtime} {d : Setup} {username : Text} {awaited : List Awaited}
variable {provedKey : Text → Text → Text → Option Bytes} {inbox : List Incoming} {door : Door}

/-- Nothing has been made ready for queries, and no transaction begun. -/
def Fresh (v : Visit σ Value Stmt Portal) : Prop :=
  v.atReadyForQuery = false ∧ v.world.txStatus = .I

/-- What is to be read is `inbox`. -/
def At (door : Door) (inbox : List Incoming) (v : Visit σ Value Stmt Portal) (k : Door) : Prop :=
  k = door ∧ v.inbox = inbox ∧ Fresh v

/-- Before the verdict, and still there. -/
def Door.waits (door : Door) : Prop := door.verdict = none ∧ door.standing = true

/-- A bad frame finds a client that may be refused, and is not said to be a wrong password. -/
def Reported (e : Thrown) (k : Door) : Prop :=
  ∀ x, e = .protocolViolation x → k.refusable = true ∧ x.sqlstate ≠ "28P01"

theorem reported_failure (f : Failure) (k : Door) : Reported (.failure f) k := by
  intro x same
  cases same

/-- What is raised before the verdict. -/
def Waiting (e : Thrown) (v : Visit σ Value Stmt Portal) (k : Door) : Prop :=
  Fresh v ∧ k.waits ∧ Reported e k

theorem waits_of_refusable (h : door.refusable = true) : door.waits := by
  cases door <;> first | exact ⟨rfl, rfl⟩ | cases h

theorem At.waiting {v : Visit σ Value Stmt Portal} {k : Door} {f : Failure} (h : At door inbox v k)
    (waits : door.waits) : Waiting (.failure f) v k := by
  obtain ⟨rfl, -, before⟩ := h
  exact ⟨before, waits, reported_failure _ _⟩

theorem sent_of_waits (waits : door.waits) (w : Written) :
    door.sent username w = door.answered username w.1 := by
  obtain ⟨undecided, standing⟩ := waits
  cases door with
  | served k => cases undecided
  | left verdict => cases standing
  | _ => rfl

/-- A message is sent that leads on, or cannot be built. -/
theorem leads_sent {b : Backend} {P : Visit σ Value Stmt Portal → Door → Prop}
    {R : Unit → Visit σ Value Stmt Portal → Door → Prop}
    {E : Thrown → Visit σ Value Stmt Portal → Door → Prop}
    (moves : ∀ v k, P v k →
      ∃ k', (∀ w : Written, w.1 = b → k.sent username w = some k') ∧ R () v k')
    (fails : ∀ f v k, P v k → E (.failure f) v k) :
    Command.Triple (Door.next username awaited) P (send rt b) R E := by
  rw [send]
  split
  case isTrue made =>
    apply Command.Triple.write
    intro v k start
    obtain ⟨k', moved, after⟩ := moves v k start
    exact ⟨k', moved _ rfl, after⟩
  case isFalse => exact Command.Triple.raise (fails _)

theorem leads_send {b : Backend} (door' : Door) (waits : door.waits)
    (moves : door.answered username b = some door') :
    Command.Triple (Door.next username awaited) (At door inbox)
      (send rt b : Cmd σ Value Stmt Portal Unit) (fun _ => At door' inbox) Waiting := by
  apply leads_sent
  · rintro v k ⟨rfl, rest⟩
    refine ⟨door', ?_, rfl, rest⟩
    rintro w rfl
    exact (sent_of_waits waits w).trans moves
  · exact fun f v k start => start.waiting waits

/-- The stream drains, or is lost. -/
theorem leads_drained {P : Visit σ Value Stmt Portal → Door → Prop}
    {E : Thrown → Visit σ Value Stmt Portal → Door → Prop}
    (keeps : ∀ v k drains, P v k → P { v with drains := drains } k)
    (fails : ∀ f v k, P v k → E (.failure f) v k) :
    Command.Triple (Door.next username awaited) P drain (fun _ => P) E := by
  refine Command.Triple.read_bind fun v₀ => ?_
  refine Command.Triple.bind (R := fun _ => P) ?_ fun _ => ?_
  · exact Command.Triple.change fun v k start => keeps v k _ start.2
  · cases v₀.drains.head?.join with
    | none => exact Command.Triple.pure fun v k start => start
    | some f => exact Command.Triple.raise (fails f)

theorem leads_drain (waits : door.waits) :
    Command.Triple (Door.next username awaited) (At door inbox)
      (drain : Cmd σ Value Stmt Portal Unit) (fun _ => At door inbox) Waiting :=
  leads_drained (fun _ _ _ start => start) fun _ _ _ start => start.waiting waits

theorem leads_readMessage (refusable : door.refusable = true) :
    Command.Triple (Door.next username awaited) (At door inbox)
      (readMessage : Cmd σ Value Stmt Portal Message)
      (fun m v k => ∃ later, inbox = .message m :: later ∧ At door later v k) Waiting := by
  refine Command.Triple.read_bind fun v₀ => ?_
  have waits := waits_of_refusable refusable
  split
  case h_1 =>
    apply Command.Triple.raise
    rintro v k ⟨-, rfl, -, before⟩
    refine ⟨before, waits, fun x same => ?_⟩
    cases same
  case h_2 =>
    apply Command.Triple.raise
    rintro v k ⟨-, rfl, -, before⟩
    refine ⟨before, waits, fun x same => ?_⟩
    cases same
    exact ⟨refusable, show "08P01" ≠ "28P01" by decide⟩
  case h_3 => exact Command.Triple.raise fun v k start => start.2.waiting waits
  case h_4 m later found =>
    refine Command.Triple.bind
      (R := fun _ v k => inbox = .message m :: later ∧ At door later v k) ?_ fun _ => ?_
    · apply Command.Triple.change
      rintro v k ⟨rfl, rfl, rfl, before⟩
      exact ⟨found, rfl, rfl, before⟩
    · exact Command.Triple.pure fun v k start => ⟨later, start⟩

theorem leads_readPassword (expected : String) (refusable : door.refusable = true) :
    Command.Triple (Door.next username awaited) (At door inbox)
      (readPassword expected : Cmd σ Value Stmt Portal Bytes)
      (fun payload v k => ∃ later, inbox = .message ⟨PASSWORD, payload⟩ :: later ∧
        At door later v k) Waiting := by
  refine Command.Triple.bind (leads_readMessage refusable) fun m => ?_
  split
  case isTrue password =>
    apply Command.Triple.pure
    rintro v k ⟨later, rfl, here⟩
    obtain ⟨tag, payload⟩ := m
    obtain rfl : tag = PASSWORD := password
    exact ⟨later, rfl, here⟩
  case isFalse =>
    apply Command.Triple.raise
    rintro v k ⟨later, -, here⟩
    exact here.waiting (waits_of_refusable refusable)

theorem leads_decoded (waits : door.waits) (payload : Bytes) (text : Option Text) :
    Command.Triple (Door.next username awaited) (At door inbox)
      (decoded rt payload text : Cmd σ Value Stmt Portal Text)
      (fun t v k => text = some t ∧ At door inbox v k) Waiting := by
  cases text with
  | none => exact Command.Triple.raise fun v k start => start.waiting waits
  | some text => exact Command.Triple.pure fun v k start => ⟨rfl, start⟩

theorem leads_getPassword (waits : door.waits) :
    Command.Triple (Door.next username awaited) (At door inbox)
      (getPassword d username : Cmd σ Value Stmt Portal (Option Text))
      (fun expected v k => d.identity username = .ok expected ∧ At door inbox v k) Waiting := by
  apply Command.Triple.settle
  intro v k start
  cases d.identity username with
  | ok expected => exact ⟨rfl, start⟩
  | error f => exact start.waiting waits

theorem answered_fatal (open_ : door.refusable = true) (e : PgError) :
    door.answered username (fatalError e) =
      some (.refused (decide (fatalError e = fatalError (denial username)))) := by
  cases door <;> first | rfl | cases open_

theorem fatalError_sqlstate {e e' : PgError} (same : fatalError e = fatalError e') :
    e.sqlstate = e'.sqlstate := by
  have sqlstate (e : PgError) : (FieldMessages.report "FATAL".toList e.sqlstate.toList
      e.message.toList []).get? FieldMessages.SQLSTATE = some e.sqlstate.toList := by
    rw [FieldMessages.report, List.foldl_nil, Dict.get?_set, if_neg (by decide), Dict.get?_set,
      if_pos rfl]
  have fields := congrArg (Dict.get? · FieldMessages.SQLSTATE) (Backend.errorResponse.inj same)
  have texts := (sqlstate e).symm.trans (fields.trans (sqlstate e'))
  exact String.toList_inj.mp (Option.some.inj texts)

/-- Refused for another reason than the password. -/
theorem answered_other (open_ : door.refusable = true) {e : PgError}
    (other : e.sqlstate ≠ "28P01") :
    door.answered username (fatalError e) = some (.refused false) := by
  rw [answered_fatal open_, decide_eq_false fun same => other (fatalError_sqlstate same)]

/-- What the plugin has come to: it may be said so at once. -/
structure Decided (presents : Prop) (username : Text) (ok : Bool) (v : Visit σ Value Stmt Portal)
    (k : Door) : Prop where
  before : Fresh v
  waits : k.waits
  presents : ok = true ↔ presents
  granted : ok = true → k.answered username .authenticationOk = some .granted
  refused : ok = false → k.refusable = true

theorem leads_compared {ask : Backend} (accepts : Text → Text → Bool)
    (asks : Door.knocking.answered username ask = some .asked) :
    Command.Triple (Door.next username awaited) (At .knocking inbox)
      (compared rt d ask accepts username : Cmd σ Value Stmt Portal Bool)
      (Decided (Responds d accepts username inbox) username) Waiting := by
  refine Command.Triple.bind (leads_send .asked ⟨rfl, rfl⟩ asks) fun _ => ?_
  refine Command.Triple.bind (leads_drain ⟨rfl, rfl⟩) fun _ => ?_
  refine Command.Triple.bind (leads_readPassword _ rfl) fun payload => ?_
  refine Command.Triple.any fun later => Command.Triple.given fun read => ?_
  refine Command.Triple.bind (leads_decoded ⟨rfl, rfl⟩ _ _) fun response => ?_
  refine Command.Triple.given fun text => ?_
  refine Command.Triple.bind (leads_getPassword ⟨rfl, rfl⟩) fun expected => ?_
  refine Command.Triple.given fun known => ?_
  apply Command.Triple.pure
  rintro v k ⟨rfl, -, before⟩
  refine ⟨before, ⟨rfl, rfl⟩, ?_, fun _ => rfl, fun _ => rfl⟩
  rw [Option.all_eq_true]
  constructor
  · intro accepted
    exact ⟨payload, later, response, expected, read, text, known, accepted⟩
  · rintro ⟨payload', later', response', expected', read', text', known', accepted⟩
    cases read.symm.trans read'
    cases text.symm.trans text'
    cases known.symm.trans known'
    exact accepted

theorem leads_scramFinish {server : d.scramp.Server} (serverFirst : Text) {presents : Prop}
    (means : ∀ payload later clientFinal, inbox = .message ⟨PASSWORD, payload⟩ :: later →
      Utf8.whole payload = some clientFinal →
        (((d.scramp.setClientFinal server clientFinal).bind d.scramp.getServerFinal).isSome = true ↔
          presents)) :
    Command.Triple (Door.next username awaited) (At .sasl inbox)
      (scramFinish rt d server serverFirst : Cmd σ Value Stmt Portal Bool)
      (Decided presents username) Waiting := by
  refine Command.Triple.bind (leads_send .continued ⟨rfl, rfl⟩ rfl) fun _ => ?_
  refine Command.Triple.bind (leads_drain ⟨rfl, rfl⟩) fun _ => ?_
  refine Command.Triple.bind (leads_readPassword _ rfl) fun payload => ?_
  refine Command.Triple.any fun later => Command.Triple.given fun read => ?_
  refine Command.Triple.bind (leads_decoded ⟨rfl, rfl⟩ _ _) fun clientFinal => ?_
  refine Command.Triple.given fun text => ?_
  have accepted := means payload later clientFinal read text
  split
  case h_1 failed =>
    apply Command.Triple.pure
    rintro v k ⟨rfl, -, before⟩
    rw [failed] at accepted
    exact ⟨before, ⟨rfl, rfl⟩, accepted, fun ok => absurd ok Bool.false_ne_true, fun _ => rfl⟩
  case h_2 serverFinal passed =>
    rw [passed] at accepted
    refine Command.Triple.bind (leads_send .proved ⟨rfl, rfl⟩ rfl) fun _ => ?_
    refine Command.Triple.bind (leads_drain ⟨rfl, rfl⟩) fun _ => ?_
    apply Command.Triple.pure
    rintro v k ⟨rfl, -, before⟩
    exact ⟨before, ⟨rfl, rfl⟩, accepted, fun _ => rfl, fun ok => by cases ok⟩

theorem leads_scram (documented : d.scramp.Documented provedKey) (salt : Bytes) :
    Command.Triple (Door.next username awaited) (At .knocking inbox)
      (scram rt d salt username : Cmd σ Value Stmt Portal Bool)
      (Decided (Proves d provedKey salt username inbox) username) Waiting := by
  refine Command.Triple.bind (leads_getPassword ⟨rfl, rfl⟩) fun expected => ?_
  refine Command.Triple.given fun known => ?_
  refine Command.Triple.bind (leads_send .sasl ⟨rfl, rfl⟩ rfl) fun _ => ?_
  refine Command.Triple.bind (leads_drain ⟨rfl, rfl⟩) fun _ => ?_
  refine Command.Triple.bind (leads_readPassword _ rfl) fun first => ?_
  refine Command.Triple.any fun between => Command.Triple.given fun read => ?_
  refine Command.Triple.bind (leads_decoded ⟨rfl, rfl⟩ _ _) fun clientFirst => ?_
  refine Command.Triple.given fun decoded => ?_
  split
  case h_1 failed =>
    apply Command.Triple.pure
    rintro v k ⟨rfl, -, before⟩
    refine ⟨before, ⟨rfl, rfl⟩, ⟨fun ok => absurd ok Bool.false_ne_true, ?_⟩,
      fun ok => absurd ok Bool.false_ne_true, fun _ => rfl⟩
    rintro ⟨first', second, later, clientFirst', clientFinal, expected', serverFirst, server, read',
      decoded', -, known', answered, -⟩
    cases read.symm.trans read'
    cases decoded.symm.trans decoded'
    cases known.symm.trans known'
    cases failed.symm.trans answered
  case h_2 serverFirst server answered =>
    refine leads_scramFinish serverFirst fun second later clientFinal read₂ text => ?_
    obtain ⟨bare, sent, stored⟩ := Scram.answered_attributes documented answered
    rw [documented.accepts server _ clientFinal stored, bare, sent]
    constructor
    · intro proved
      exact ⟨first, second, later, clientFirst, clientFinal, expected, serverFirst, server,
        by rw [read, read₂], decoded, text, known, answered, proved⟩
    · rintro ⟨first', second', later', clientFirst', clientFinal', expected', serverFirst', server',
        read', decoded', text', known', answered', proved⟩
      rw [read, read₂] at read'
      cases read'
      cases decoded.symm.trans decoded'
      cases text.symm.trans text'
      cases known.symm.trans known'
      cases answered.symm.trans answered'
      exact proved

theorem leads_plugin (documented : d.scramp.Documented provedKey) :
    Command.Triple (Door.next username awaited) (At .knocking inbox)
      (plugin rt d username : Cmd σ Value Stmt Portal Bool)
      (Decided (Presents d provedKey username inbox) username) Waiting := by
  rw [plugin, Presents]
  split
  case h_1 =>
    apply Command.Triple.pure
    rintro v k ⟨rfl, -, before⟩
    exact ⟨before, ⟨rfl, rfl⟩, by simp, fun _ => rfl, fun ok => by cases ok⟩
  case h_2 => exact leads_compared _ rfl
  case h_3 => exact leads_compared _ rfl
  case h_4 salt _ => exact leads_scram documented salt

/-! ## The way in -/

/-- Whoever was let in or denied was so rightly, and is there still. -/
structure Kept (presents : Prop) (v : Visit σ Value Stmt Portal) (k : Door) : Prop where
  admitted : k.verdict = some true → presents
  denied : k.verdict = some false → ¬presents
  standing : k.standing = true
  pushes : v.atReadyForQuery = true → k.verdict = some true

/-- What `run` finds raised. -/
def Raised (presents : Prop) (e : Thrown) (v : Visit σ Value Stmt Portal) (k : Door) : Prop :=
  Kept presents v k ∧ Reported e k

variable {presents : Prop}

theorem Waiting.raised {e : Thrown} {v : Visit σ Value Stmt Portal} {k : Door}
    (h : Waiting e v k) : Raised presents e v k := by
  obtain ⟨⟨before, -⟩, ⟨undecided, standing⟩, violation⟩ := h
  refine ⟨⟨fun said => ?_, fun said => ?_, standing, fun ready => ?_⟩, violation⟩
  · rw [undecided] at said
    cases said
  · rw [undecided] at said
    cases said
  · rw [before] at ready
    cases ready

/-- Behind AuthenticationOk. -/
def Past (door : Door) (v : Visit σ Value Stmt Portal) (k : Door) : Prop := k = door ∧ Fresh v

theorem Past.raised {f : Failure} {v : Visit σ Value Stmt Portal} {k : Door} (holds : presents)
    (inside : door.verdict = some true) (standing : door.standing = true) (h : Past door v k) :
    Raised presents (.failure f) v k := by
  obtain ⟨rfl, -⟩ := h
  refine ⟨⟨fun _ => holds, fun said => ?_, standing, fun _ => inside⟩, reported_failure _ _⟩
  rw [inside] at said
  cases said

theorem leads_authenticate (documented : d.scramp.Documented provedKey) :
    Command.Triple (Door.next username awaited) (At .knocking inbox)
      (authenticate rt d username : Cmd σ Value Stmt Portal Bool)
      (fun ok v k => if ok then Presents d provedKey username inbox ∧ Past .granted v k
        else Kept (Presents d provedKey username inbox) v k)
      (Raised (Presents d provedKey username inbox)) := by
  refine Command.Triple.bind
    ((leads_plugin documented).imp (fun _ _ _ h => h) fun _ _ _ => Waiting.raised) fun ok => ?_
  cases ok with
  | true =>
    refine Command.Triple.bind (leads_sent (R := fun _ v k =>
      Presents d provedKey username inbox ∧ Past .granted v k) ?_ ?_) fun _ => ?_
    · intro v k h
      refine ⟨.granted, ?_, h.presents.mp rfl, rfl, h.before⟩
      rintro w rfl_
      rw [sent_of_waits h.waits, rfl_, h.granted rfl]
    · intro f v k h
      exact Waiting.raised ⟨h.before, h.waits, reported_failure _ _⟩
    · exact Command.Triple.pure fun v k start => start
  | false =>
    refine Command.Triple.bind (leads_sent (R := fun _ =>
      Kept (Presents d provedKey username inbox)) ?_ ?_) fun _ => ?_
    · intro v k h
      have refused : ¬Presents d provedKey username inbox := fun holds =>
        Bool.false_ne_true (h.presents.mpr holds)
      refine ⟨.refused true, ?_, ⟨fun said => ?_, fun _ => refused, rfl, fun ready => ?_⟩⟩
      · rintro w rfl_
        rw [sent_of_waits h.waits, rfl_, answered_fatal (h.refused rfl), decide_eq_true rfl]
      · cases said
      · rw [h.before.1] at ready
        cases ready
    · intro f v k h
      exact Waiting.raised ⟨h.before, h.waits, reported_failure _ _⟩
    · refine Command.Triple.bind (leads_drained ?_ ?_) fun _ => ?_
      · exact fun v k drains start => ⟨start.admitted, start.denied, start.standing, start.pushes⟩
      · exact fun f v k start => ⟨start, reported_failure _ _⟩
      · exact Command.Triple.pure fun v k start => start

/-! ## The startup burst -/

theorem leads_past {b : Backend} (holds : presents) (door' : Door)
    (inside : door.verdict = some true) (standing : door.standing = true)
    (moves : ∀ w : Written, w.1 = b → door.sent username w = some door') :
    Command.Triple (Door.next username awaited) (Past door)
      (send rt b : Cmd σ Value Stmt Portal Unit) (fun _ => Past door') (Raised presents) := by
  apply leads_sent
  · rintro v k ⟨rfl, before⟩
    exact ⟨door', moves, rfl, before⟩
  · exact fun f v k start => start.raised holds inside standing

theorem leads_sendStatuses (holds : presents) (statuses : List (String × String)) :
    Command.Triple (Door.next username awaited) (Past .granted)
      (sendStatuses rt statuses : Cmd σ Value Stmt Portal Unit) (fun _ => Past .granted)
      (Raised presents) := by
  induction statuses with
  | nil => exact Command.Triple.pure fun v k start => start
  | cons status later ih =>
    refine Command.Triple.bind (leads_past holds .granted rfl rfl ?_) fun _ => ih
    rintro ⟨b, made⟩ rfl
    rfl

theorem leads_sendStartupCompletion (holds : presents) :
    Command.Triple (Door.next username awaited) (Past .granted)
      (sendStartupCompletion rt d : Cmd σ Value Stmt Portal Unit) (fun _ => Past .greeted)
      (Raised presents) := by
  refine Command.Triple.read_bind fun v₀ => ?_
  refine Command.Triple.of_imp (Q := fun v k => v₀.world.txStatus = .I ∧ Past .granted v k) ?_ ?_
  swap
  · rintro v k ⟨rfl, rfl, before⟩
    exact ⟨before.2, rfl, before⟩
  refine Command.Triple.given fun idle => ?_
  refine Command.Triple.bind (leads_sendStatuses holds _) fun _ => ?_
  refine Command.Triple.bind (leads_sendStatuses holds _) fun _ => ?_
  refine Command.Triple.bind (leads_past holds .keyed rfl rfl ?_) fun _ => ?_
  · rintro ⟨b, made⟩ rfl
    rfl
  refine Command.Triple.bind (leads_past holds .greeted rfl rfl ?_) fun _ => ?_
  · rintro ⟨b, made⟩ rfl
    rw [idle]
    rfl
  exact leads_drained (fun _ _ _ start => start) fun _ _ _ start => start.raised holds rfl rfl

/-! ## The session -/

/-- What the session pushes goes to a client that has been let in. -/
theorem run_pushes {k : Door} (pushed : List Pushed)
    (takes : ∀ w : Written, w.1.isAsync = true → k.sent username w = some k) :
    Trace.run (Door.next username awaited) k (pushed.map fun p => Entry.sent p.1) = some k := by
  induction pushed with
  | nil => rfl
  | cons p pushed ih =>
    rw [List.map_cons, Trace.run_cons]
    exact (congrArg (Option.bind · _) (takes p.1 p.2)).trans ih

theorem served_pushed (k : Dispatch.Client) (w : Written) (pushed : w.1.isAsync = true) :
    (Door.served k).sent username w = some (.served k) := by
  obtain moved := Dispatch.next_pushed (k := k) ⟨w, pushed⟩
  exact congrArg (Option.map Door.served) moved

/-- The client is served from here. -/
def Served (awaited : List Awaited) (_ : Visit σ Value Stmt Portal) (k : Door) : Prop :=
  k = .served ⟨awaited, .start⟩

theorem Served.kept {v : Visit σ Value Stmt Portal} {k : Door} (holds : presents)
    (h : Served awaited v k) : Kept presents v k := by
  obtain rfl := h
  refine ⟨fun _ => holds, fun said => ?_, rfl, fun _ => rfl⟩
  cases said

theorem leads_initialise (ends : Ends σ Value Stmt Portal) (holds : presents) :
    Command.Triple (Door.next username awaited) (fun _ k => k = .greeted)
      (initialise ends) (fun _ => Served awaited) (Raised presents) := by
  rintro v k rfl
  rw [initialise]
  generalize ends.init (v.own, v.world) = done
  obtain ⟨⟨own, world⟩, pushed, result⟩ := done
  refine ⟨.served ⟨awaited, .start⟩, ?_, ?_⟩
  · rw [Trace.run_cons]
    exact run_pushes pushed (served_pushed _)
  · cases result with
    | ok x => exact rfl
    | error f =>
      exact ⟨Served.kept holds rfl, reported_failure _ _⟩

/-- Before anything has been done. -/
def Outside (username : Text) (inbox : List Incoming) (v : Visit σ Value Stmt Portal) (k : Door) :
    Prop :=
  v.world.connection.username.toList = username ∧ At .knocking inbox v k

theorem leads_claim :
    Command.Triple (Door.next username awaited) (Outside username inbox)
      (claim rt d : Cmd σ Value Stmt Portal Bool)
      (fun claimed v k => if claimed then Outside username inbox v k else Kept presents v k)
      (Raised presents) := by
  refine Command.Triple.read_bind fun v₀ => ?_
  split
  case h_1 => exact Command.Triple.pure fun v k start => start.2
  case h_2 held _ =>
    split
    case isTrue => exact Command.Triple.pure fun v k start => start.2
    case isFalse =>
      refine Command.Triple.bind (leads_sent (R := fun _ => Kept presents) ?_ ?_) fun _ => ?_
      · rintro v k ⟨-, -, rfl, -, before, -⟩
        refine ⟨.refused false, ?_, fun said => ?_, fun said => ?_, rfl, fun ready => ?_⟩
        · rintro w rfl_
          have other : (heldBy held).sqlstate ≠ "28P01" := show "XX000" ≠ "28P01" by decide
          rw [sent_of_waits ⟨rfl, rfl⟩, rfl_, answered_other rfl other]
        · cases said
        · cases said
        · rw [before] at ready
          cases ready
      · exact fun f v k start => (start.2.2.waiting ⟨rfl, rfl⟩).raised
      · exact Command.Triple.pure fun v k start => start

/-- What `greet` has come to. -/
def Greeted (presents : Prop) (awaited : List Awaited) (greeted : Bool)
    (v : Visit σ Value Stmt Portal) (k : Door) : Prop :=
  Kept presents v k ∧ (greeted = true → Served awaited v k)

theorem leads_greet (documented : d.scramp.Documented provedKey)
    (ends : Ends σ Value Stmt Portal) :
    Command.Triple (Door.next username awaited) (Outside username inbox) (greet rt d ends)
      (Greeted (Presents d provedKey username inbox) awaited)
      (Raised (Presents d provedKey username inbox)) := by
  have outside : Command.Triple (Door.next username awaited)
      (Kept (Presents d provedKey username inbox)) (pure false : Cmd σ Value Stmt Portal Bool)
      (Greeted (Presents d provedKey username inbox) awaited)
      (Raised (Presents d provedKey username inbox)) :=
    Command.Triple.pure fun v k kept => ⟨kept, fun go => by cases go⟩
  refine Command.Triple.bind leads_claim fun claimed => ?_
  cases claimed with
  | false => exact outside
  | true =>
    refine Command.Triple.read_bind fun v₀ => ?_
    refine Command.Triple.of_imp
      (Q := fun v k => v₀.world.connection.username.toList = username ∧ At .knocking inbox v k)
      ?_ ?_
    swap
    · rintro v k ⟨rfl, named, here⟩
      exact ⟨named, here⟩
    refine Command.Triple.given fun named => ?_
    rw [named]
    refine Command.Triple.bind (leads_authenticate documented) fun ok => ?_
    cases ok with
    | false => exact outside
    | true =>
      refine Command.Triple.given fun holds => ?_
      refine Command.Triple.bind (leads_sendStartupCompletion holds) fun _ => ?_
      refine Command.Triple.bind (R := fun _ _ k => k = .greeted) ?_ fun _ => ?_
      · exact Command.Triple.change fun v k start => start.1
      refine Command.Triple.bind (leads_initialise ends holds) fun _ => ?_
      refine Command.Triple.bind (leads_drained ?_ ?_) fun _ => ?_
      · exact fun v k drains start => start
      · exact fun f v k start => ⟨start.kept holds, reported_failure _ _⟩
      · exact Command.Triple.pure fun v k start => ⟨start.kept holds, fun _ => start⟩

/-! ## The way out -/

theorem left_pushed (w : Written) (pushed : w.1.isAsync = true) :
    (Door.left (some true)).sent username w = some (.left (some true)) := by
  rw [Door.sent, if_pos pushed]

theorem leads_close (ends : Ends σ Value Stmt Portal) (verdict : Option Bool) :
    Command.Triple (Door.next username awaited)
      (fun v k => k = .left verdict ∧ (v.atReadyForQuery = true → verdict = some true))
      (close ends) (fun _ _ k => k = .closed verdict) (fun _ _ k => k = .closed verdict) := by
  rintro v k ⟨rfl, ready⟩
  rw [close]
  generalize ends.close (v.own, v.world) = done
  obtain ⟨⟨own, world⟩, pushed, result⟩ := done
  refine ⟨.closed verdict, ?_, ?_⟩
  · have pushes : Trace.run (Door.next username awaited) (.left verdict)
        (if v.atReadyForQuery then pushed.map fun p => Entry.sent p.1 else []) =
          some (.left verdict) := by
      split
      case isTrue there =>
        rw [ready there]
        exact run_pushes pushed left_pushed
      case isFalse => rfl
    exact Command.Triple.run_append_of pushes rfl
  · cases result with
    | ok x => exact rfl
    | error f => cases f <;> exact rfl

/-- The connection is taken down, and what has been decided stays so. -/
theorem run_leave (ends : Ends σ Value Stmt Portal) {v : Visit σ Value Stmt Portal} {k : Door}
    (kept : Kept presents v k) :
    ∃ k', Trace.run (Door.next username awaited) k (leave d ends v).2.1 = some k' ∧
      k'.verdict = k.verdict := by
  have led : Command.Triple (Door.next username awaited) (fun v' k' => v' = v ∧ k' = k)
      (leave d ends) (fun _ _ k' => k'.verdict = k.verdict)
      (fun _ _ k' => k'.verdict = k.verdict) := by
    refine Command.Triple.bind (R := fun _ v' k' => v'.atReadyForQuery = v.atReadyForQuery ∧ k' = k)
      ?_ fun _ => ?_
    · apply Command.Triple.change
      rintro v' k' ⟨rfl, rfl⟩
      exact ⟨rfl, rfl⟩
    refine Command.Triple.bind (R := fun _ v' k' => k' = .left k.verdict ∧
      (v'.atReadyForQuery = true → k.verdict = some true)) ?_ fun _ => ?_
    · apply Command.Triple.write
      rintro v' k' ⟨same, rfl⟩
      refine ⟨.left k'.verdict, ?_, rfl, fun ready => kept.pushes (same.symm.trans ready)⟩
      rw [Door.next, if_pos kept.standing]
    refine Command.Triple.bind ((leads_close ends k.verdict).imp (fun _ _ _ h => h) ?_) fun _ => ?_
    · rintro e v' k' rfl
      rfl
    · apply Command.Triple.write
      rintro v' k' rfl
      exact ⟨.gone k.verdict, rfl, rfl⟩
  obtain ⟨k', follows, after⟩ := led v k ⟨rfl, rfl⟩
  refine ⟨k', follows, ?_⟩
  cases result : (leave d ends v).2.2 with
  | ok x =>
    rw [result] at after
    exact after
  | error e =>
    rw [result] at after
    exact after

/-! ## A whole life -/

theorem run_lastWords {e : Thrown} {v : Visit σ Value Stmt Portal} {k : Door}
    (raised : Raised presents e v k) :
    ∃ k', Trace.run (Door.next username awaited) k ((lastWords e).map Entry.sent) = some k' ∧
      Kept presents v k' := by
  obtain ⟨kept, reported⟩ := raised
  cases e with
  | protocolViolation x =>
    rw [lastWords]
    split
    case isTrue made =>
      obtain ⟨refusable, other⟩ := reported x rfl
      have undecided := verdict_of_refusable refusable
      refine ⟨.refused false, ?_, fun said => ?_, fun said => ?_, rfl, fun ready => ?_⟩
      · have moved : k.sent username ⟨fatalError x, made⟩ = some (.refused false) := by
          rw [sent_of_waits (waits_of_refusable refusable), answered_other refusable other]
        rw [List.map_singleton, Trace.run_cons]
        exact congrArg (Option.bind · _) moved
      · cases said
      · cases said
      · have let_in := kept.pushes ready
        rw [undecided] at let_in
        cases let_in
    case isFalse => exact ⟨k, rfl, kept⟩
  | failure f => exact ⟨k, rfl, kept⟩
  | connectionClosed => exact ⟨k, rfl, kept⟩

variable {ty : Types Cell Param} {s : Session σ Value Stmt Portal Cell Param}

theorem follows_serve {r : Run σ Value Stmt Portal} (follows : Dispatch.Follows r)
    (events : List Dispatch.Event) : Dispatch.Follows (serve rt ty s r events) := by
  induction events generalizing r with
  | nil => exact follows
  | cons e events ih =>
    rw [serve, List.foldl_cons]
    refine ih ?_
    cases stepped : Dispatch.step rt ty s r e with
    | none => exact follows
    | some r' => exact Dispatch.follows_step follows stepped

theorem run_served {k k' : Dispatch.Client} {out : List Written}
    (ran : Trace.run Dispatch.Client.next k out = some k') :
    Trace.run (Door.next username awaited) (.served k) (out.map Entry.sent) =
      some (.served k') := by
  induction out generalizing k with
  | nil =>
    rw [← Option.some.inj ran]
    rfl
  | cons w out ih =>
    obtain ⟨next, moved, later⟩ := Option.bind_eq_some_iff.mp ran
    rw [List.map_cons, Trace.run_cons]
    have first : Door.next username awaited (.served k) (.sent w) = some (.served next) :=
      congrArg (Option.map Door.served) moved
    rw [first, Option.bind_some]
    exact ih later

/-- Behind what has been let in, denied or neither rightly the connection is taken down. -/
theorem run_behind (ends : Ends σ Value Stmt Portal) {log : List Entry}
    {v : Visit σ Value Stmt Portal} {k₀ k : Door}
    (ran : Trace.run (Door.next username awaited) k₀ log = some k) (kept : Kept presents v k) :
    ∃ k', Trace.run (Door.next username awaited) k₀ (log ++ (leave d ends v).2.1) = some k' ∧
      (k'.verdict = some true → presents) ∧ (k'.verdict = some false → ¬presents) := by
  obtain ⟨k', follows, same⟩ := run_leave (d := d) ends kept
  refine ⟨k', Command.Triple.run_append_of ran follows, ?_, ?_⟩
  · exact fun said => kept.admitted (same.symm.trans said)
  · exact fun said => kept.denied (same.symm.trans said)

theorem run_life (rt : Runtime) (ty : Types Cell Param)
    (s : Session σ Value Stmt Portal Cell Param) (documented : d.scramp.Documented provedKey)
    (ends : Ends σ Value Stmt Portal)
    {v : Visit σ Value Stmt Portal} (outside : Outside username inbox v .knocking)
    (events : List Dispatch.Event) (later : List Awaited) :
    ∃ k, Trace.run (Door.next username ((run rt ty s d ends v events).read.map Awaited.ofRead ++
        later)) .knocking (run rt ty s d ends v events).log = some k ∧
      (k.verdict = some true → Presents d provedKey username inbox) ∧
      (k.verdict = some false → ¬Presents d provedKey username inbox) := by
  have led (awaited : List Awaited) : Command.Triple (Door.next username awaited)
      (Outside username inbox) (greet rt d ends) _ _ := leads_greet documented ends
  have led (awaited : List Awaited) := led awaited v .knocking outside
  rw [run]
  generalize greet rt d ends v = done at led
  obtain ⟨v', log, result⟩ := done
  cases result with
  | error e =>
    obtain ⟨k, ran, raised⟩ := led ([] ++ later)
    obtain ⟨k', last, kept⟩ := run_lastWords raised
    exact run_behind ends (Command.Triple.run_append_of ran last) kept
  | ok greeted =>
    cases greeted with
    | false =>
      obtain ⟨k, ran, kept, -⟩ := led ([] ++ later)
      exact run_behind ends ran kept
    | true =>
      have follows : Dispatch.Follows (serve rt ty s (Run.start v'.own v'.world) events) :=
        follows_serve (Dispatch.follows_start _ _) events
      simp only
      generalize serve rt ty s (Run.start v'.own v'.world) events = r at follows
      obtain ⟨k, ran, kept, served⟩ := led (r.read.map Awaited.ofRead ++ later)
      obtain rfl := served rfl
      obtain ⟨k', placed, -⟩ := follows later
      have sofar := Command.Triple.run_append_of ran (run_served placed)
      have holds := kept.admitted rfl
      split
      case isTrue =>
        refine run_behind ends sofar ⟨fun _ => holds, fun said => ?_, rfl, fun _ => rfl⟩
        cases said
      case isFalse =>
        rw [List.append_nil]
        refine ⟨.served k', sofar, fun _ => holds, fun said => ?_⟩
        cases said

end Leads

/-! ## The door -/

/-- A server that asks for a password. -/
def asking : Setup where
  plugin := .clearText
  hashes := ⟨Scram.plainHashes, fun _ => []⟩
  scramp := Scram.plainScramp
  identity := fun _ => .ok (some "secret".toList)
  secret := 7
  isSession := true

def quiet : Ends Unit Unit Text Text :=
  ⟨fun reached => (reached, [], .ok ()), fun reached => (reached, [], .ok ())⟩

def guess : Message := ⟨PASSWORD, Utf8.encode "guess".toList ++ [0]⟩

def guessing : Visit Unit Unit Text Text :=
  ⟨(), Dispatch.idle, none, false, [.message guess], []⟩

end PgMimic.Handshake
