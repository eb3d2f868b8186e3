import Mathlib.Data.List.Basic

/-!
# Scanning a text that is there as a whole

A scanner takes one token off the front of a text, or finds none there. Unlike an
item of a stream a token may depend on what follows it: a word ends where something
else begins. `ReadsBefore` says of a tail that no token of the text in front of it runs
into it, and then the text is scanned as if it stood alone (`scan_append`).
-/

structure Scanner.{u, v} (α : Type u) (β : Type v) where
  next : List α → Option (β × List α)
  shorter : ∀ {text token rest}, next text = some (token, rest) → rest.length < text.length

namespace Scanner

universe u v

variable {α : Type u} {β : Type v} (s : Scanner α β)

/-- At most so many tokens, each with what follows it, and what is left after them. -/
def upTo : Nat → List α → List (β × List α) × List α
  | 0, text => ([], text)
  | fuel + 1, text =>
    match s.next text with
    | none => ([], text)
    | some (token, rest) =>
      let (tokens, left) := upTo fuel rest
      ((token, rest) :: tokens, left)

/-- All the tokens up to where there is none. Each is shorter than what it is taken from. -/
def scan (text : List α) : List (β × List α) × List α := s.upTo (text.length + 1) text

variable {s}

/-- Fuel beyond the length of the text is never used. -/
theorem upTo_eq_scan {fuel : Nat} {text : List α} (enough : text.length < fuel) :
    s.upTo fuel text = s.scan text := by
  have any_two : ∀ {n m : Nat} {text : List α}, text.length < n → text.length < m →
      s.upTo n text = s.upTo m text := by
    intro n
    induction n with
    | zero => intro m text hn; omega
    | succ n ih =>
      intro m text hn hm
      cases m with
      | zero => omega
      | succ m =>
        simp only [upTo]
        cases h : s.next text with
        | none => rfl
        | some taken =>
          have shorter := s.shorter h
          have same := @ih m taken.2 (by omega) (by omega)
          simp only [same]
  exact any_two enough (Nat.lt_succ_self _)

theorem scan_of_next_none {text : List α} (h : s.next text = none) : s.scan text = ([], text) := by
  simp only [scan, upTo, h]

theorem scan_of_next_some {text rest : List α} {token : β} (h : s.next text = some (token, rest)) :
    s.scan text = ((token, rest) :: (s.scan rest).1, (s.scan rest).2) := by
  have later := @upTo_eq_scan _ _ s text.length rest (s.shorter h)
  simp only [scan, upTo, h] at later ⊢
  rw [later]

/-- The tokens of a text, by whether it begins with one. -/
theorem scan_induction {motive : List α → Prop} (stuck : ∀ text, s.next text = none → motive text)
    (step : ∀ text token rest, s.next text = some (token, rest) → motive rest → motive text)
    (text : List α) : motive text := by
  induction hn : text.length using Nat.strongRecOn generalizing text with
  | ind n ih =>
    cases h : s.next text with
    | none => exact stuck text h
    | some taken =>
      have shorter : taken.2.length < n := hn ▸ s.shorter h
      exact step text taken.1 taken.2 h (ih taken.2.length shorter taken.2 rfl)

/-- Nothing is left that a token could be taken from. -/
theorem next_left (text : List α) : s.next (s.scan text).2 = none := by
  induction text using scan_induction (s := s) with
  | stuck text none => rwa [scan_of_next_none none]
  | step text token rest some ih => rwa [scan_of_next_some some]

/-- No token in front of the tail runs into it. -/
def ReadsBefore (s : Scanner α β) (tail : List α) : Prop :=
  ∀ {text token rest}, s.next text = some (token, rest) →
    s.next (text ++ tail) = some (token, rest ++ tail)

theorem scan_append {tail : List α} (reads : s.ReadsBefore tail) (text : List α) :
    s.scan (text ++ tail) =
      ((s.scan text).1.map (fun taken => (taken.1, taken.2 ++ tail)) ++
          (s.scan ((s.scan text).2 ++ tail)).1,
        (s.scan ((s.scan text).2 ++ tail)).2) := by
  induction text using scan_induction (s := s) with
  | stuck text none => rw [scan_of_next_none none, List.map_nil, List.nil_append]
  | step text token rest some ih =>
    rw [scan_of_next_some some, scan_of_next_some (reads some), ih, List.map_cons,
      List.cons_append]

end Scanner
