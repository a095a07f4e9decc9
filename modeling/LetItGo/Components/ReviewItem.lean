import LetItGo.Library.Calendar
import LetItGo.Components.DetailsScreen

/-!
# ReviewItem

A row of the review lists: its state, the text it shows, and `renderHowLongAgo`, which reads the
clock anew for every calendar field. Dates are read in the zone of the device, a function from
instants to local times.

`Age` is what `renderHowLongAgo` returns, before it is put into words. All its branches are one
search, for the coarsest field in which the clock exceeds the date (`renderHowLongAgo_eq`).
-/

set_option autoImplicit false

namespace LetItGo.Components.ReviewItem

open LetItGo.Library.Js
open LetItGo.Library.Calendar
open LetItGo.Components.DetailsScreen (LoadedReview)

/-! ## Labels -/

inductive AgeUnit where
  | minute
  | hour
  | day
  | month
  | year
  deriving DecidableEq, Repr

/-- A label: 'just now', or a number of units. -/
inductive Age where
  | justNow
  | ago (unit : AgeUnit) (n : ℤ)
  deriving DecidableEq, Repr

def AgeUnit.name : AgeUnit → String
  | .minute => "minute"
  | .hour => "hour"
  | .day => "day"
  | .month => "month"
  | .year => "year"

/-- The label in words. -/
def Age.text : Age → String
  | .justNow => "just now"
  | .ago unit n =>
    if n = 1 then toString n ++ " " ++ unit.name ++ " ago"
    else toString n ++ " " ++ unit.name ++ "s ago"

section

variable (zone : Date → LocalTime)

/-- `renderHowLongAgo(date)`; `clock i` is what the `i`-th `new Date()` of the call gives. The outer
`diffInMonths`, `diffInDays`, `diffInHours` and `diffInMinutes`, from the readings 1 to 4, are
shadowed in every branch that uses one. -/
def renderHowLongAgo (clock : ℕ → Date) (date : Date) : Age :=
  let diffInYears := (zone (clock 0)).year - (zone date).year
  if diffInYears ≤ 0 then
    let diffInMonths : ℤ := (zone (clock 5)).month - (zone date).month
    if diffInMonths ≤ 0 then
      let diffInDays : ℤ := (zone (clock 6)).day - (zone date).day
      if diffInDays ≤ 0 then
        let diffInHours : ℤ := (zone (clock 7)).hour - (zone date).hour
        if diffInHours ≤ 0 then
          let diffInMinutes : ℤ := (zone (clock 8)).minute - (zone date).minute
          if diffInMinutes ≤ 0 then .justNow else .ago .minute diffInMinutes
        else .ago .hour diffInHours
      else .ago .day diffInDays
    else .ago .month diffInMonths
  else .ago .year diffInYears

end

/-! ## The row -/

/-- `this.state`. -/
structure State where
  expandText : Bool
  deriving DecidableEq, Repr

def State.initial : State := ⟨false⟩

/-- The `onPress` of the text. -/
def State.press (st : State) : State := ⟨!st.expandText⟩

/-- A character in UTF-16. -/
def utf16 (c : Char) : List ℕ :=
  if c.toNat < 65536 then [c.toNat]
  else [55296 + (c.toNat - 65536) / 1024, 56320 + (c.toNat - 65536) % 1024]

/-- A string as JavaScript counts and cuts it. -/
def codeUnits (s : String) : List ℕ := s.toList.flatMap utf16

/-- What `render` shows of a review. -/
structure View where
  photoURL : Option String
  name : Option String
  score : ℕ
  age : String
  text : List ℕ
  deriving DecidableEq, Repr

/-- The text shown. -/
def shownText (st : State) (item : LoadedReview) : List ℕ :=
  if st.expandText then codeUnits item.review
  else if (codeUnits item.review).length > 100 then
    (codeUnits item.review).take 100 ++ codeUnits "..."
  else codeUnits item.review

/-- A text that is not shown as it is before it has been expanded: of more than a hundred units, the
rest of which are not the three dots. -/
def IsCut (item : LoadedReview) : Prop :=
  100 < (codeUnits item.review).length ∧ (codeUnits item.review).drop 100 ≠ codeUnits "..."

theorem isCut_of_length {item : LoadedReview} (h : 103 < (codeUnits item.review).length) :
    IsCut item := by
  refine ⟨by omega, ?_⟩
  intro heq
  have hlength := congrArg List.length heq
  have hdots : (codeUnits "...").length = 3 := by decide
  rw [List.length_drop, hdots] at hlength
  omega

/-- The text is shown in full if it is expanded, or not one to be cut. -/
theorem shownText_eq_iff (st : State) (item : LoadedReview) :
    shownText st item = codeUnits item.review ↔ (IsCut item → st.expandText = true) := by
  unfold shownText IsCut
  split
  · next hexpanded => exact iff_of_true rfl fun _ => hexpanded
  · next hcollapsed =>
    split
    · next hlong =>
      -- the first hundred units are the text's own
      have hsplit : (codeUnits item.review).take 100 ++ codeUnits "..." = codeUnits item.review ↔
          (codeUnits item.review).drop 100 = codeUnits "..." := by
        constructor
        · intro heq
          have hdrop := congrArg (List.drop 100) heq
          rw [List.drop_append_of_le_length (by rw [List.length_take]; omega),
            List.drop_take_self, List.nil_append] at hdrop
          exact hdrop.symm
        · intro heq
          rw [← heq, List.take_append_drop]
      rw [hsplit]
      constructor
      · intro heq hcut
        exact absurd heq hcut.2
      · intro h
        by_contra hne
        exact hcollapsed (h ⟨hlong, hne⟩)
    · next hshort => exact iff_of_true rfl fun hcut => absurd hcut.1 hshort

/-- `render()`. -/
def render (zone : Date → LocalTime) (clock : ℕ → Date) (item : LoadedReview) (st : State) :
    View where
  photoURL := item.photoURL
  name := item.name
  score := item.score
  age := (renderHowLongAgo zone clock item.date).text
  text := shownText st item

/-! ## The coarsest field exceeded -/

namespace AgeUnit

/-- Coarser units come later. -/
def rank : AgeUnit → ℕ
  | .minute => 1
  | .hour => 2
  | .day => 3
  | .month => 4
  | .year => 5

/-- The calendar field of the unit. -/
def field (t : LocalTime) : AgeUnit → ℤ
  | .minute => t.minute
  | .hour => t.hour
  | .day => t.day
  | .month => t.month
  | .year => t.year

/-- The number of the clock reading that the label takes the field from. -/
def reading : AgeUnit → ℕ
  | .minute => 8
  | .hour => 7
  | .day => 6
  | .month => 5
  | .year => 0

/-- All units, coarsest first. -/
def all : List AgeUnit := [.year, .month, .day, .hour, .minute]

theorem mem_all (u : AgeUnit) : u ∈ all := by cases u <;> decide

theorem rank_pos (u : AgeUnit) : 0 < u.rank := by cases u <;> decide

theorem rank_inj {u w : AgeUnit} (h : u.rank = w.rank) : u = w := by
  cases u <;> cases w <;> first | rfl | cases h

end AgeUnit

/-- The first unit of the list with a positive difference. -/
def firstPositive (diff : AgeUnit → ℤ) : List AgeUnit → Age
  | [] => .justNow
  | u :: us => if diff u ≤ 0 then firstPositive diff us else .ago u (diff u)

/-- By how much the clock exceeds the date in the field of a unit, each at its own reading. -/
def fieldDiff (zone : Date → LocalTime) (clock : ℕ → Date) (date : Date) (u : AgeUnit) : ℤ :=
  u.field (zone (clock u.reading)) - u.field (zone date)

theorem renderHowLongAgo_eq (zone : Date → LocalTime) (clock : ℕ → Date) (date : Date) :
    renderHowLongAgo zone clock date = firstPositive (fieldDiff zone clock date) AgeUnit.all := rfl

/-- Over units from coarse to fine, the search finds the coarsest one with a positive difference. -/
theorem firstPositive_eq_ago_iff {diff : AgeUnit → ℤ} {us : List AgeUnit}
    (hus : us.Pairwise fun u w => w.rank < u.rank) {u : AgeUnit} {n : ℤ} :
    firstPositive diff us = .ago u n ↔
      u ∈ us ∧ n = diff u ∧ 0 < diff u ∧ ∀ w ∈ us, u.rank < w.rank → diff w ≤ 0 := by
  induction us with
  | nil => simp [firstPositive]
  | cons v us ih =>
    obtain ⟨hv, hus⟩ := List.pairwise_cons.1 hus
    unfold firstPositive
    split
    · next hnot =>
      rw [ih hus]
      constructor
      · rintro ⟨hmem, hn, hpos, hcoarser⟩
        refine ⟨List.mem_cons_of_mem v hmem, hn, hpos, ?_⟩
        intro w hw hrank
        rcases List.mem_cons.1 hw with rfl | hw
        · exact hnot
        · exact hcoarser w hw hrank
      · rintro ⟨hmem, hn, hpos, hcoarser⟩
        rcases List.mem_cons.1 hmem with rfl | hmem
        · omega
        · exact ⟨hmem, hn, hpos, fun w hw => hcoarser w (List.mem_cons_of_mem v hw)⟩
    · next hpos =>
      constructor
      · intro h
        cases h
        refine ⟨List.mem_cons_self, rfl, not_le.1 hpos, ?_⟩
        intro w hw hrank
        rcases List.mem_cons.1 hw with rfl | hw
        · omega
        · have hlt := hv w hw
          omega
      · rintro ⟨hmem, rfl, -, hcoarser⟩
        rcases List.mem_cons.1 hmem with rfl | hmem
        · rfl
        · -- `v` is coarser than `u`, and positive
          exact absurd (hcoarser v List.mem_cons_self (hv u hmem)) hpos

theorem firstPositive_eq_justNow_iff {diff : AgeUnit → ℤ} {us : List AgeUnit} :
    firstPositive diff us = .justNow ↔ ∀ u ∈ us, diff u ≤ 0 := by
  induction us with
  | nil => simp [firstPositive]
  | cons v us ih =>
    unfold firstPositive
    split
    · next hnot => simp [ih, hnot]
    · next hpos => simp [hpos]

/-- The label names the coarsest field in which the clock exceeds the date, and by how much. -/
theorem renderHowLongAgo_eq_ago_iff {zone : Date → LocalTime} {clock : ℕ → Date} {date : Date}
    {u : AgeUnit} {n : ℤ} :
    renderHowLongAgo zone clock date = .ago u n ↔
      n = fieldDiff zone clock date u ∧ 0 < fieldDiff zone clock date u ∧
        ∀ w, u.rank < w.rank → fieldDiff zone clock date w ≤ 0 := by
  rw [renderHowLongAgo_eq, firstPositive_eq_ago_iff (by decide)]
  simp [AgeUnit.mem_all]

/-- It is 'just now' if there is none. -/
theorem renderHowLongAgo_eq_justNow_iff {zone : Date → LocalTime} {clock : ℕ → Date} {date : Date} :
    renderHowLongAgo zone clock date = .justNow ↔ ∀ u, fieldDiff zone clock date u ≤ 0 := by
  rw [renderHowLongAgo_eq, firstPositive_eq_justNow_iff]
  simp [AgeUnit.mem_all]

end LetItGo.Components.ReviewItem
