import Mathlib.Data.List.Basic

/-!
# Splitting a stream that arrives in pieces

A splitter takes one item off the front of what has arrived, or leaves it all
there for want of more. Nothing that arrives later changes an item it has taken,
and an item takes at least one element; no more is asked of it. A consumer does
something with each item, keeps a state, and may stop: what is left then, and
whatever comes after, is thrown away.

The outputs and the state do not depend on where the stream was cut
(`consume_append`).
-/

structure Splitter.{u, v} (α : Type u) (β : Type v) where
  next : List α → Option (β × List α)
  shorter : ∀ {buffer item rest}, next buffer = some (item, rest) → rest.length < buffer.length
  stable : ∀ {buffer item rest} (more : List α), next buffer = some (item, rest) →
    next (buffer ++ more) = some (item, rest ++ more)

namespace Splitter

universe u v w x

structure Consumer (σ : Type w) (β : Type v) (γ : Type x) where
  accept : σ → β → σ × List γ
  stopped : σ → Bool

variable {α : Type u} {β : Type v} {σ : Type w} {γ : Type x}
variable (split : Splitter α β) (consumer : Consumer σ β γ)

/-- The outputs, the state and the elements left after at most so many items. -/
def pour : Nat → σ → List α → List γ × σ × List α
  | 0, s, buffer => ([], s, buffer)
  | fuel + 1, s, buffer =>
    if consumer.stopped s then ([], s, [])
    else
      match split.next buffer with
      | none => ([], s, buffer)
      | some (item, rest) =>
        let (t, out) := consumer.accept s item
        let (outs, left) := pour fuel t rest
        (out ++ outs, left)

/-- All the items that are complete. Every item is shorter than what it is taken from. -/
def consume (s : σ) (buffer : List α) : List γ × σ × List α :=
  pour split consumer (buffer.length + 1) s buffer

theorem next_nil : split.next [] = none := by
  cases h : split.next [] with
  | none => rfl
  | some cut => exact absurd (split.shorter h) (Nat.not_lt_zero _)

variable {split consumer}

/-- Fuel beyond the length of the buffer is never used. -/
theorem pour_eq_consume {fuel : Nat} {s : σ} {buffer : List α} (enough : buffer.length < fuel) :
    pour split consumer fuel s buffer = consume split consumer s buffer := by
  have any_two : ∀ {n m : Nat} {s : σ} {buffer : List α}, buffer.length < n → buffer.length < m →
      pour split consumer n s buffer = pour split consumer m s buffer := by
    intro n
    induction n with
    | zero => intro m s buffer hn; exact absurd hn (Nat.not_lt_zero _)
    | succ n ih =>
      intro m s buffer hn hm
      cases m with
      | zero => exact absurd hm (Nat.not_lt_zero _)
      | succ m =>
        simp only [pour]
        split
        · rfl
        · cases h : split.next buffer with
          | none => rfl
          | some cut =>
            have shorter := split.shorter h
            have same := @ih m (consumer.accept s cut.1).1 cut.2 (by omega) (by omega)
            simp only [same]
  exact any_two enough (Nat.lt_succ_self _)

theorem consume_of_stopped {s : σ} (stopped : consumer.stopped s = true) (buffer : List α) :
    consume split consumer s buffer = ([], s, []) := by
  simp only [consume, pour, if_pos stopped]

theorem consume_of_next_none {s : σ} {buffer : List α} (running : consumer.stopped s = false)
    (h : split.next buffer = none) : consume split consumer s buffer = ([], s, buffer) := by
  simp only [consume, pour, h, running, Bool.false_eq_true, if_false]

theorem consume_of_next_some {s : σ} {buffer rest : List α} {item : β}
    (running : consumer.stopped s = false) (h : split.next buffer = some (item, rest)) :
    consume split consumer s buffer =
      ((consumer.accept s item).2 ++
          (consume split consumer (consumer.accept s item).1 rest).1,
        (consume split consumer (consumer.accept s item).1 rest).2) := by
  have later := @pour_eq_consume _ _ _ _ split consumer buffer.length
    (consumer.accept s item).1 rest (split.shorter h)
  simp only [consume, pour, h, running, Bool.false_eq_true, if_false] at later ⊢
  simp only [later]

/-- Cutting the stream anywhere changes nothing: what the first piece leaves is looked at
again in front of the second. -/
theorem consume_append (s : σ) (buffer more : List α) :
    consume split consumer s (buffer ++ more) =
      ((consume split consumer s buffer).1 ++
          (consume split consumer (consume split consumer s buffer).2.1
            ((consume split consumer s buffer).2.2 ++ more)).1,
        (consume split consumer (consume split consumer s buffer).2.1
          ((consume split consumer s buffer).2.2 ++ more)).2) := by
  induction hn : buffer.length using Nat.strongRecOn generalizing s buffer with
  | ind n ih =>
    cases stopped : consumer.stopped s with
    | true => simp only [consume_of_stopped stopped, List.append_nil]
    | false =>
      cases h : split.next buffer with
      | none => simp only [consume_of_next_none stopped h, List.nil_append]
      | some cut =>
        obtain ⟨item, rest⟩ := cut
        have shorter : rest.length < n := hn ▸ split.shorter h
        have later := ih rest.length shorter (consumer.accept s item).1 rest rfl
        rw [consume_of_next_some stopped (split.stable more h), later,
          consume_of_next_some stopped h]
        simp only [List.append_assoc]

/-- What a piece leaves has no complete item left in it. -/
theorem consume_left (s : σ) (buffer : List α) :
    consume split consumer (consume split consumer s buffer).2.1
        (consume split consumer s buffer).2.2 =
      ([], (consume split consumer s buffer).2) := by
  have law := @consume_append _ _ _ _ split consumer s buffer []
  simp only [List.append_nil] at law
  have outputs := congrArg Prod.fst law
  have states := congrArg Prod.snd law
  exact Prod.ext (List.self_eq_append_right.mp outputs) states.symm

variable (split consumer) in
/-- One piece after another: what each leaves is put in front of the next. -/
def feed (s : σ) (held : List α) : List (List α) → List γ × σ × List α
  | [] => ([], s, held)
  | piece :: later =>
    let (outs, t, left) := consume split consumer s (held ++ piece)
    let (more, last) := feed t left later
    (outs ++ more, last)

/-- The pieces give what all of them together give. -/
theorem feed_eq_consume (pieces : List (List α)) {s : σ} {held : List α}
    (waiting : consume split consumer s held = ([], s, held)) :
    feed split consumer s held pieces = consume split consumer s (held ++ pieces.flatten) := by
  induction pieces generalizing s held with
  | nil => rw [feed, List.flatten_nil, List.append_nil, waiting]
  | cons piece later ih =>
    have left := @consume_left _ _ _ _ split consumer s (held ++ piece)
    have rest := ih left
    rw [feed, List.flatten_cons, ← List.append_assoc,
      consume_append s (held ++ piece) later.flatten]
    simp only [rest]

end Splitter
