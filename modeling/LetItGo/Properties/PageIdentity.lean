import LetItGo.Library.Runs
import LetItGo.Systems.Navigator

/-!
# One page, one toilet

A row pressed while the details page is mounted gives the page the pressed toilet's title and
position, and its stars the pressed toilet's collection, while the reviews are still read from the
collection of the toilet it was opened with. The four belong to one toilet in every state exactly
as long as such presses are of toilets with the same name.
-/

set_option autoImplicit false

namespace LetItGo.Properties.PageIdentity

open LetItGo.Library.DocumentStore
open LetItGo.Library.Runs
open LetItGo.Components
open LetItGo.Components.DetailsScreen (Details)
open LetItGo.Components.FirstScreen (Toilet)
open LetItGo.Systems.Navigator

/-- The screens, and the toilets whose rows have been pressed so far. -/
structure Visit where
  stack : Stack
  pressed : List Toilet
  deriving DecidableEq

def Visit.initial : Visit := ⟨Stack.initial, []⟩

def rowOf : Action → List Toilet
  | .pressRow item => [item]
  | _ => []

def Visit.step (v : Visit) (a : Action) : Option Visit :=
  (v.stack.step a).map fun stack => ⟨stack, v.pressed ++ rowOf a⟩

/-- A page with the parameters `p` and the collection `ref` in `this.ref` is that of the toilet:
the title and the position it shows, the collection it reads, and the one that a review started
from it is written to. -/
structure PageOf (toilet : Toilet) (p : Params) (ref : CollectionRef) : Prop where
  title : p.title.getD "COM1" = toilet.name
  position : p.lat = some toilet.lat ∧ p.lon = some toilet.lon
  reads : ref = DetailsScreen.constructorRef (some toilet.name)
  writes : ∀ count, ReviewSubmissionScreen.constructorRef (Reviews.onFinishRating p.title count) =
    DetailsScreen.constructorRef (some toilet.name)

/-- The mounted details page is that of one of the toilets pressed, and so is a submission screen
above it. -/
def OneToilet (v : Visit) : Prop :=
  ∀ p ref d, ⟨.Details, p, .details ref d⟩ ∈ v.stack → ∃ toilet ∈ v.pressed, PageOf toilet p ref ∧
    ∀ p' ref', ⟨.Reviews, p', .submission ref'⟩ ∈ v.stack →
      ref' = DetailsScreen.constructorRef (some toilet.name)

/-- The condition on a step: a row pressed while the details page is mounted is that of a toilet
with the name that the page was opened with. -/
def sameName (s : Stack) : Action → Bool
  | .pressRow item => s.all fun r =>
    match r.screen with
    | .details ref _ => ref = DetailsScreen.constructorRef (some item.name)
    | _ => true
  | _ => true

/-! ## One step -/

theorem pageOf_onPress (item : Toilet) (old : Params) :
    PageOf item ((onPress item).merge old) (DetailsScreen.constructorRef (some item.name)) where
  title := rfl
  position := ⟨rfl, rfl⟩
  reads := rfl
  writes := fun _ => rfl

theorem oneToilet_of_subset {v v' : Visit} (h : OneToilet v) (hsub : ∀ r ∈ v'.stack, r ∈ v.stack)
    (hpressed : ∀ toilet ∈ v.pressed, toilet ∈ v'.pressed) : OneToilet v' := by
  intro p ref d hpage
  obtain ⟨toilet, hrow, htoilet, hform⟩ := h p ref d (hsub _ hpage)
  exact ⟨toilet, hpressed toilet hrow, htoilet, fun p' ref' hmem => hform p' ref' (hsub _ hmem)⟩

section

variable {p p' p'' : Params} {ref ref' : CollectionRef} {d : Details} {pressed : List Toilet}

/-- The stacks with a details page on the list. -/
theorem oneToilet_page_iff :
    OneToilet ⟨[⟨.First, p, .first⟩, ⟨.Details, p', .details ref d⟩], pressed⟩ ↔
      ∃ toilet ∈ pressed, PageOf toilet p' ref := by
  constructor
  · intro h
    obtain ⟨toilet, hrow, htoilet, -⟩ := h p' ref d (by simp)
    exact ⟨toilet, hrow, htoilet⟩
  · rintro ⟨toilet, hrow, htoilet⟩ q ref' d' hmem
    simp only [List.mem_cons, List.not_mem_nil, or_false] at hmem
    rcases hmem with heq | heq
    · cases heq
    · cases heq
      exact ⟨toilet, hrow, htoilet, by simp⟩

theorem oneToilet_form_iff :
    OneToilet ⟨[⟨.First, p, .first⟩, ⟨.Details, p', .details ref d⟩,
        ⟨.Reviews, p'', .submission ref'⟩], pressed⟩ ↔
      ∃ toilet ∈ pressed, PageOf toilet p' ref ∧
        ref' = DetailsScreen.constructorRef (some toilet.name) := by
  constructor
  · intro h
    obtain ⟨toilet, hrow, htoilet, hform⟩ := h p' ref d (by simp)
    exact ⟨toilet, hrow, htoilet, hform p'' ref' (by simp)⟩
  · rintro ⟨toilet, hrow, htoilet, hform⟩ q ref'' d' hmem
    simp only [List.mem_cons, List.not_mem_nil, or_false] at hmem
    rcases hmem with heq | heq | heq
    · cases heq
    · cases heq
      refine ⟨toilet, hrow, htoilet, ?_⟩
      intro q' ref₃ hmem'
      simp only [List.mem_cons, List.not_mem_nil, or_false] at hmem'
      rcases hmem' with heq' | heq' | heq'
      · cases heq'
      · cases heq'
      · cases heq'
        exact hform
    · cases heq

end

/-- A step from a page of one toilet leads to a page of one toilet if and only if it meets the
condition. -/
theorem oneToilet_next {s s' : Stack} {pressed : List Toilet} {a : Action} (hshape : Shape s)
    (h : OneToilet ⟨s, pressed⟩) (hnext : Next s a s') :
    OneToilet ⟨s', pressed ++ rowOf a⟩ ↔ sameName s a = true := by
  cases hnext with
  | openPage p item =>
    exact iff_of_true
      (oneToilet_page_iff.2 ⟨item, by simp [rowOf], pageOf_onPress item Params.empty⟩) rfl
  | pressAgain p p' ref d above item =>
    have hsame : sameName (⟨.First, p, .first⟩ :: ⟨.Details, p', .details ref d⟩ :: above)
        (.pressRow item) = true ↔ ref = DetailsScreen.constructorRef (some item.name) := by
      -- nothing above the page is a details page
      cases hshape <;> simp [sameName]
    rw [hsame, oneToilet_page_iff]
    constructor
    · rintro ⟨toilet, -, htoilet⟩
      have hname : item.name = toilet.name := htoilet.title
      rw [hname]
      exact htoilet.reads
    · rintro rfl
      exact ⟨item, by simp [rowOf], pageOf_onPress item p'⟩
  | openForm p p' ref d count =>
    obtain ⟨toilet, hrow, htoilet⟩ := oneToilet_page_iff.1 h
    simp only [rowOf, List.append_nil]
    exact iff_of_true (oneToilet_form_iff.2 ⟨toilet, hrow, htoilet, htoilet.writes count⟩) rfl
  | tapAgain p p' p'' ref ref' d count =>
    simp only [rowOf, List.append_nil]
    exact iff_of_true (oneToilet_form_iff.2 (oneToilet_form_iff.1 h)) rfl
  | details p p' ref d d' above e =>
    simp only [rowOf, List.append_nil]
    refine iff_of_true ?_ rfl
    cases hshape with
    | page => exact oneToilet_page_iff.2 (oneToilet_page_iff.1 h)
    | form => exact oneToilet_form_iff.2 (oneToilet_form_iff.1 h)
  | back s =>
    refine iff_of_true (oneToilet_of_subset h (fun r hr => ?_) (by simp [rowOf])) rfl
    change r ∈ Library.StackNavigator.goBack s at hr
    unfold Library.StackNavigator.goBack at hr
    split at hr
    · exact List.mem_of_mem_dropLast hr
    · exact hr

/-! ## Along a run -/

/-- In every run of row presses, star taps, reads and ways back: the page is that of one of the
toilets pressed in every state if and only if every row pressed while the page is mounted is that of
a toilet with the name it was opened with. -/
theorem oneToilet_iff_sameName {as : List Action} {v : Visit}
    (hrun : run Visit.step Visit.initial as = some v) :
    EveryState Visit.step OneToilet Visit.initial as ↔
      EveryStep Visit.step (fun v a => sameName v.stack a = true) Visit.initial as := by
  have hinitial : OneToilet Visit.initial := by
    intro p ref d hmem
    obtain hmem := List.mem_singleton.1 hmem
    cases hmem
  refine everyState_iff_everyStep (I := fun v : Visit => Shape v.stack) ?_ ?_ (Shape.list _)
    hinitial hrun
  · intro v a v' hshape hstep
    obtain ⟨stack, hstack, rfl⟩ := Option.map_eq_some_iff.1 hstep
    exact shape_step hshape hstack
  · rintro ⟨s, pressed⟩ a v' hshape h hstep
    obtain ⟨stack, hstack, rfl⟩ := Option.map_eq_some_iff.1 hstep
    exact oneToilet_next hshape h (next_of_step hshape hstack)

/-- A toilet at `lat`, without facilities. -/
def toiletAt (name : String) (lat : ℚ) : Toilet where
  facilities := ⟨.undefined, .undefined, .undefined, .undefined, .undefined, .undefined⟩
  lat := lat
  lon := 103
  name := name
  paranomaUrl := ""
  distance := 0
  paranoma := none

/-- A row pressed twice, then a review started: every state is that of one toilet. -/
theorem oneToilet_pressed_twice :
    EveryState Visit.step OneToilet Visit.initial
      [.pressRow (toiletAt "COM1" 1), .pressRow (toiletAt "COM1" 1), .details (.take 0 []),
        .details (.succeed 0), .tapStar ⟨5, by decide, by decide⟩, .goBack] :=
  (@oneToilet_iff_sameName [.pressRow (toiletAt "COM1" 1), .pressRow (toiletAt "COM1" 1),
    .details (.take 0 []), .details (.succeed 0), .tapStar ⟨5, by decide, by decide⟩,
    .goBack] _ rfl).2 (by decide)

/-- The row of COM1, and then that of COM2 while the page of COM1 is mounted: the page has COM2's
title and position, and reads COM1's reviews. -/
theorem twoToilets_pressed :
    ∃ v p d, run Visit.step Visit.initial
        [.pressRow (toiletAt "COM1" 1), .pressRow (toiletAt "COM2" 2)] = some v ∧
      v.stack = [⟨.First, Params.empty, .first⟩,
        ⟨.Details, p, .details (DetailsScreen.constructorRef (some "COM1")) d⟩] ∧
      p.title = some "COM2" ∧ p.lat = some 2 ∧ ¬ OneToilet v := by
  refine ⟨_, _, _, rfl, rfl, rfl, rfl, ?_⟩
  intro h
  obtain ⟨toilet, -, htoilet⟩ := oneToilet_page_iff.1 h
  have htitle : "COM2" = toilet.name := htoilet.title
  have hreads : "COM1" = toilet.name := DetailsScreen.constructorRef_inj.1 htoilet.reads
  rw [← htitle] at hreads
  exact absurd hreads (by decide)

end LetItGo.Properties.PageIdentity
