import Mathlib.Data.Finset.Basic
import Mathlib.Data.Multiset.Fold

/-!
# The server's channel registry

`PgServer._listeners` maps a channel to the connections listening to it, an
entry being dropped with its last listener. A connection updates many channels
in one loop over a set; the loop is a fold over that set, and the instance
below is what makes its result independent of the order Python takes.
-/

namespace PgMimic

abbrev Pid := Nat

/-- `PgServer._listeners`, keyed by channel. -/
abbrev Registry := String → Option (Finset Pid)

namespace Registry

/-- The subscribers of one channel with `pid` among them. -/
def joined (pid : Pid) (subscribers : Option (Finset Pid)) : Option (Finset Pid) :=
  some (insert pid (subscribers.getD ∅))

/-- The subscribers of one channel without `pid`, and no husk once they are none. -/
def left (pid : Pid) : Option (Finset Pid) → Option (Finset Pid)
  | none => none
  | some subscribers =>
    if subscribers.erase pid = ∅ then none else some (subscribers.erase pid)

/-- One entry rewritten by `g`. -/
def touch (g : Option (Finset Pid) → Option (Finset Pid)) (r : Registry) (channel : String) :
    Registry :=
  Function.update r channel (g (r channel))

def addListener (r : Registry) (channel : String) (pid : Pid) : Registry :=
  touch (joined pid) r channel

def removeListener (r : Registry) (channel : String) (pid : Pid) : Registry :=
  touch (left pid) r channel

def listeners (r : Registry) (channel : String) : Finset Pid := (r channel).getD ∅

/-- `pid` is registered for `channel`. -/
def Registered (r : Registry) (pid : Pid) (channel : String) : Prop := pid ∈ r.listeners channel

/-- Entries are touched one at a time, so two touches commute. -/
instance (g : Option (Finset Pid) → Option (Finset Pid)) : RightCommutative (touch g) where
  right_comm r a b := by
    by_cases h : a = b
    · rw [h]
    · simp only [touch]
      rw [Function.update_of_ne (Ne.symm h), Function.update_of_ne h, Function.update_comm h]

instance (pid : Pid) :
    RightCommutative (fun (r : Registry) (channel : String) => r.addListener channel pid) :=
  inferInstanceAs (RightCommutative (touch (joined pid)))

instance (pid : Pid) :
    RightCommutative (fun (r : Registry) (channel : String) => r.removeListener channel pid) :=
  inferInstanceAs (RightCommutative (touch (left pid)))

/-- `for channel in channels: self.server.add_listener(channel, self)`. -/
def addAll (r : Registry) (channels : Finset String) (pid : Pid) : Registry :=
  channels.val.foldl (fun r channel => r.addListener channel pid) r

/-- `for channel in channels: self.server.remove_listener(channel, self)`. -/
def removeAll (r : Registry) (channels : Finset String) (pid : Pid) : Registry :=
  channels.val.foldl (fun r channel => r.removeListener channel pid) r

/-- Each channel of the set is touched once and no other is touched. -/
theorem foldl_touch (g : Option (Finset Pid) → Option (Finset Pid)) (channels : Finset String)
    (r : Registry) (channel : String) :
    channels.val.foldl (touch g) r channel =
      if channel ∈ channels then g (r channel) else r channel := by
  induction channels using Finset.induction_on generalizing r with
  | empty => rfl
  | insert a channels fresh ih =>
    rw [Finset.insert_val_of_notMem fresh, Multiset.foldl_cons, ih]
    by_cases h : channel = a
    · subst h
      simp [fresh, touch]
    · simp [touch, h]

theorem addAll_apply (r : Registry) (channels : Finset String) (pid : Pid) (channel : String) :
    r.addAll channels pid channel =
      if channel ∈ channels then joined pid (r channel) else r channel :=
  foldl_touch (joined pid) channels r channel

theorem removeAll_apply (r : Registry) (channels : Finset String) (pid : Pid)
    (channel : String) :
    r.removeAll channels pid channel =
      if channel ∈ channels then left pid (r channel) else r channel :=
  foldl_touch (left pid) channels r channel

theorem mem_joined {pid q : Pid} {subscribers : Option (Finset Pid)} :
    q ∈ (joined pid subscribers).getD ∅ ↔ q = pid ∨ q ∈ subscribers.getD ∅ := by
  simp [joined]

theorem mem_left {pid q : Pid} {subscribers : Option (Finset Pid)} :
    q ∈ (left pid subscribers).getD ∅ ↔ q ≠ pid ∧ q ∈ subscribers.getD ∅ := by
  cases subscribers with
  | none => simp [left]
  | some members =>
    by_cases h : members.erase pid = ∅
    · have absent : q ∉ members.erase pid := by rw [h]; exact Finset.notMem_empty q
      rw [Finset.mem_erase] at absent
      simpa [left, h] using absent
    · simp [left, h]

theorem registered_addAll {r : Registry} {channels : Finset String} {pid q : Pid}
    {channel : String} :
    (r.addAll channels pid).Registered q channel ↔
      (q = pid ∧ channel ∈ channels) ∨ r.Registered q channel := by
  simp only [Registered, listeners, addAll_apply]
  by_cases h : channel ∈ channels
  · rw [if_pos h, mem_joined]
    simp only [h, and_true]
  · rw [if_neg h]
    simp only [h, and_false, false_or]

theorem registered_removeAll {r : Registry} {channels : Finset String} {pid q : Pid}
    {channel : String} :
    (r.removeAll channels pid).Registered q channel ↔
      ¬(q = pid ∧ channel ∈ channels) ∧ r.Registered q channel := by
  simp only [Registered, listeners, removeAll_apply]
  by_cases h : channel ∈ channels
  · rw [if_pos h, mem_left]
    simp only [h, and_true, ne_eq]
  · rw [if_neg h]
    simp only [h, and_false, not_false_eq_true, true_and]

/-- No channel is left with an empty set. -/
def NoHusk (r : Registry) : Prop := ∀ channel, r channel ≠ some ∅

theorem joined_ne_empty (pid : Pid) (subscribers : Option (Finset Pid)) :
    joined pid subscribers ≠ some ∅ := by
  simp [joined]

theorem left_ne_empty (pid : Pid) (subscribers : Option (Finset Pid)) :
    left pid subscribers ≠ some ∅ := by
  cases subscribers with
  | none => simp [left]
  | some members =>
    by_cases h : members.erase pid = ∅
    · simp [left, h]
    · simp [left, h]

theorem NoHusk.addAll {r : Registry} (h : r.NoHusk) (channels : Finset String) (pid : Pid) :
    (r.addAll channels pid).NoHusk := by
  intro channel
  rw [addAll_apply]
  split
  · exact joined_ne_empty pid _
  · exact h channel

theorem NoHusk.removeAll {r : Registry} (h : r.NoHusk) (channels : Finset String) (pid : Pid) :
    (r.removeAll channels pid).NoHusk := by
  intro channel
  rw [removeAll_apply]
  split
  · exact left_ne_empty pid _
  · exact h channel

end Registry

end PgMimic
