import Mathlib.Data.Finset.Basic
import Mathlib.Logic.Function.Basic

/-!
# A bus with transactions

Members subscribe to topics and post items on them. In a transaction both wait for its end: a
commit sends what has been posted, each post once and in the order of the first, to those
subscribed at that moment, and makes the subscriptions of the member those it asked for; a
rollback does neither. Nothing is assumed of parties, topics and items.
-/

namespace Bus

universe u v w

variable {Party : Type u} {Topic : Type v} {Item : Type w}

structure Member (Topic : Type v) (Item : Type w) where
  /-- In a transaction. -/
  inside : Bool
  /-- What it is sent. -/
  live : Finset Topic
  /-- What it is to be sent once the transaction has committed. -/
  asked : Finset Topic
  raised : List (Topic × Item)

inductive Action (Topic : Type v) (Item : Type w) where
  | begin
  | commit
  | rollback
  | subscribe (topic : Topic)
  | unsubscribe (topic : Topic)
  | unsubscribeAll
  | post (posts : List (Topic × Item))

inductive Event (Party : Type u) (Topic : Type v) (Item : Type w) where
  | join (party : Party)
  | act (party : Party) (a : Action Topic Item)
  | leave (party : Party)

structure State (Party : Type u) (Topic : Type v) (Item : Type w) where
  members : Party → Option (Member Topic Item)
  /-- Everything a party has been sent since it joined, with who posted it. -/
  mail : Party → List (Party × Topic × Item)

def start : State Party Topic Item := ⟨fun _ => none, fun _ => []⟩

def Member.fresh : Member Topic Item := ⟨false, ∅, ∅, []⟩

def Member.ask (m : Member Topic Item) (asked : Finset Topic) : Member Topic Item :=
  { m with live := if m.inside then m.live else asked, asked := asked }

section Steps

variable [DecidableEq Topic]

/-- The posts that concern a member. -/
def Member.hears (m : Member Topic Item) (posts : List (Topic × Item)) : List (Topic × Item) :=
  posts.filter fun p => p.1 ∈ m.live

variable [DecidableEq Item]

/-- The member afterwards, and what goes out. -/
def Member.step (m : Member Topic Item) : Action Topic Item →
    Member Topic Item × List (Topic × Item)
  | .begin => ({ m with inside := true }, [])
  | .commit => (⟨false, m.asked, m.asked, []⟩, m.raised.eraseDups)
  | .rollback => (⟨false, m.live, m.live, []⟩, [])
  | .subscribe topic => (m.ask (insert topic m.asked), [])
  | .unsubscribe topic => (m.ask (m.asked.erase topic), [])
  | .unsubscribeAll => (m.ask ∅, [])
  | .post posts =>
    if m.inside then ({ m with raised := m.raised ++ posts }, []) else (m, posts)

/-- What a party is sent of somebody's posts. -/
def State.sent (s : State Party Topic Item) (sender : Party) (posts : List (Topic × Item))
    (party : Party) : List (Party × Topic × Item) :=
  match s.members party with
  | none => []
  | some m => (m.hears posts).map fun p => (sender, p)

variable [DecidableEq Party]

def step (s : State Party Topic Item) : Event Party Topic Item → Option (State Party Topic Item)
  | .join party =>
    match s.members party with
    | some _ => none
    | none => some ⟨Function.update s.members party (some .fresh),
        Function.update s.mail party []⟩
  | .act party a => (s.members party).map fun m =>
    ⟨Function.update s.members party (some (m.step a).1),
      fun other => s.mail other ++ s.sent party (m.step a).2 other⟩
  | .leave party => (s.members party).map fun _ =>
    { s with members := Function.update s.members party none }

end Steps

/-! ## Outside a transaction nothing waits -/

def Member.Orderly (m : Member Topic Item) : Prop :=
  m.inside = false → m.raised = [] ∧ m.live = m.asked

namespace Member.Orderly

theorem fresh : (Member.fresh : Member Topic Item).Orderly := fun _ => ⟨rfl, rfl⟩

theorem ask {m : Member Topic Item} (orderly : m.Orderly) (asked : Finset Topic) :
    (m.ask asked).Orderly := by
  intro outside
  have before : m.inside = false := outside
  refine ⟨(orderly outside).1, ?_⟩
  rw [Member.ask, before]
  rfl

variable [DecidableEq Topic] [DecidableEq Item]

theorem step {m : Member Topic Item} (orderly : m.Orderly) (a : Action Topic Item) :
    (m.step a).1.Orderly := by
  cases a with
  | begin => exact fun outside => Bool.noConfusion outside
  | commit | rollback => exact fun _ => ⟨rfl, rfl⟩
  | subscribe | unsubscribe | unsubscribeAll => exact orderly.ask _
  | post posts =>
    rw [Member.step]
    split
    case isTrue inside =>
      intro outside
      cases inside.symm.trans outside
    case isFalse => exact orderly

end Member.Orderly

end Bus
