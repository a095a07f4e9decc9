import LetItGo.Properties.ListShown
import LetItGo.Properties.PageOfLastRow

/-!
# From the document to the page

A toilet comes a long way: from a document of the query through a record of the list, the filter, the
row and the parameters of the route to the details page. Nothing is lost on it: the page shows the data
of a document that the query delivered, and when its row was pressed, this document had every facility
whose box was checked (`page_shows_document`).
-/

set_option autoImplicit false

namespace LetItGo.Properties.PageShowsDocument

open LetItGo.Library.DocumentStore
open LetItGo.Library.Js
open LetItGo.Library.Runs
open LetItGo.Components
open LetItGo.Components.FirstScreen (Coords FacilityType Position Toilet ToiletDoc)
open LetItGo.Components.ReviewSubmissionScreen (ReviewDoc)
open LetItGo.Components.SignIn (GoogleUser Sessions User)
open LetItGo.Properties.CrashFreedom (annsSessions)
open LetItGo.Properties.ListShown (boxes_run pressedOdd shown_eq_filter)
open LetItGo.Properties.PageOfLastRow
open LetItGo.Properties.ToiletLoading (buildToilets_some oneToilet record)
open LetItGo.Systems.Navigator (onPress)
open LetItGo.Systems.WholeApp

/-- The facility in the document, under the type that the details page gives it. -/
def facility (doc : ToiletDoc) : FacilityType → Value
  | .male => doc.facilities.male
  | .female => doc.facilities.female
  | .handicapped => doc.facilities.handicapped
  | .waterCooler => doc.facilities.waterCooler
  | .shower => doc.facilities.showerHeads
  | .bidet => doc.facilities.hose

/-- What the details page shows of a document, over the state of the page. -/
def documentView (doc : ToiletDoc) (st : DetailsScreen.State) : DetailsScreen.DetailsView where
  region := ⟨some doc.lat, some doc.lon⟩
  markerTitle := doc.name ++ " Toilet"
  imgURL := doc.paranomaUrl
  overlayVisible := st.isVisible
  title := doc.name
  facilities := FacilityType.all.map fun f =>
    { icon := FacilitiesListItem.emojiToShow f
      title := FacilitiesListItem.titles f
      textDecorationLine := if (facility doc f).truthy then .none else .lineThrough }
  card := ⟨st.avgRating, st.reviews, doc.name⟩

def listEvent : Store ReviewDoc × Action → Option FirstScreen.Event
  | (_, .first e) => some e
  | _ => none

/-- What has happened to the list. -/
def listEvents (xs : List (Store ReviewDoc × Action)) : List FirstScreen.Event :=
  xs.filterMap listEvent

section

variable {getDistance : Coords → Coords → ℚ → ℚ} {localeCompare : String → String → ℤ}
  {userOf : GoogleUser → User}

/-! ## The list -/

/-- The list of the app is a list of its own events. -/
theorem list_run (ss : Sessions) {xs : List (Store ReviewDoc × Action)} {d : App}
    (hrun : run (App.act getDistance localeCompare userOf) (App.start ss) xs = some d) {s : Screens}
    (hscreens : d.screens = .ok s) :
    run (FirstScreen.Mounted.step getDistance localeCompare) FirstScreen.mount (listEvents xs) =
      some s.first := by
  have hall : ∀ s, d.screens = .ok s →
      run (FirstScreen.Mounted.step getDistance localeCompare) FirstScreen.mount (listEvents xs) =
        some s.first := by
    refine run_prefix_invariant (I := fun xs (d : App) => ∀ s, d.screens = .ok s →
      run (FirstScreen.Mounted.step getDistance localeCompare) FirstScreen.mount (listEvents xs) =
        some s.first) ?_ ?_ hrun
    · rintro s ⟨⟩
      rfl
    · rintro ys d₁ ⟨db, a⟩ d₂ - h hstep s₂ hs₂
      obtain ⟨s₁, hs₁, ⟨e, rfl, hfirst⟩ | ⟨hno, hfirst⟩⟩ :=
        App.first_of_next (App.next_of_step hstep) hs₂
      · rw [listEvents, List.filterMap_append]
        exact run_append_iff.2 ⟨_, h s₁ hs₁, run_cons_iff.2 ⟨_, hfirst, run_nil _⟩⟩
      · have hnone : listEvent (db, a) = none := by
          cases a with
          | first e => exact absurd rfl (hno e)
          | _ => rfl
        rw [hfirst, listEvents, List.filterMap_append, List.filterMap_cons_none hnone,
          List.filterMap_nil, List.append_nil]
        exact h s₁ hs₁
  exact hall s hscreens

/-- The records are those of the query's documents. -/
def Recorded (getDistance : Coords → Coords → ℚ → ℚ) (es : List FirstScreen.Event)
    (m : FirstScreen.Mounted) : Prop :=
  ∀ t ∈ m.state.toilets, ∃ docs doc position, FirstScreen.Event.query docs ∈ es ∧ doc ∈ docs ∧
    t = record getDistance position doc

theorem recorded_run {es : List FirstScreen.Event} {m : FirstScreen.Mounted}
    (hrun : run (FirstScreen.Mounted.step getDistance localeCompare) FirstScreen.mount es = some m) :
    Recorded getDistance es m := by
  refine run_prefix_invariant (I := Recorded getDistance) ?_ ?_ hrun
  · intro t ht
    cases ht
  · intro es m e m' _ h hstep t ht
    have hbefore : t ∈ m.state.toilets → ∃ docs doc position,
        FirstScreen.Event.query docs ∈ es ++ [e] ∧ doc ∈ docs ∧ t = record getDistance position doc := by
      intro ht
      obtain ⟨docs, doc, position, hquery, hdoc, heq⟩ := h t ht
      exact ⟨docs, doc, position, List.mem_append_left _ hquery, hdoc, heq⟩
    rcases FirstScreen.Mounted.step_state_cases hstep with ⟨visible, hstate⟩ |
      ⟨docs, toilets, rfl, hbuild, hstate⟩ | ⟨box, -, -, hstate⟩
    · rw [hstate] at ht
      exact hbefore ht
    · rw [hstate] at ht
      have hmem : t ∈ toilets := (sort_perm _ _).mem_iff.1 ht
      cases hposition : m.distance with
      | none =>
        -- without a position the first document throws
        rw [hposition] at hbuild
        cases docs with
        | nil =>
          cases hbuild
          cases hmem
        | cons doc docs => cases hbuild
      | some position =>
        rw [hposition, buildToilets_some] at hbuild
        cases hbuild
        obtain ⟨doc, hdoc, rfl⟩ := List.mem_map.1 hmem
        exact ⟨docs, doc, position, List.mem_append_right _ List.mem_cons_self, hdoc, rfl⟩
    · rw [hstate] at ht
      exact hbefore (ToiletFilter.mem_toilets_press.1 ht)

/-! ## The row that was pressed last -/

theorem exists_split_of_lastRow {xs : List (Store ReviewDoc × Action)} {item : Toilet}
    (h : lastRow xs = some item) :
    ∃ ys db zs, xs = ys ++ (db, .pressRow item) :: zs ∧ zs.filterMap row = [] := by
  induction xs using List.reverseRecOn with
  | nil => cases h
  | append_singleton xs x ih =>
    rw [lastRow_concat] at h
    obtain ⟨db, a⟩ := x
    cases hrow : row (db, a) with
    | some pressed =>
      rw [hrow, Option.some_or] at h
      cases h
      cases a with
      | pressRow item =>
        cases hrow
        exact ⟨xs, db, [], rfl, rfl⟩
      | _ => cases hrow
    | none =>
      rw [hrow, Option.none_or] at h
      obtain ⟨ys, db', zs, rfl, hzs⟩ := ih h
      refine ⟨ys, db', zs ++ [(db, a)], by simp, ?_⟩
      rw [List.filterMap_append, hzs, List.filterMap_cons_none hrow]
      rfl

/-- A row that is pressed shows a document with every facility whose box is checked. -/
theorem document_of_press (ss : Sessions) {xs : List (Store ReviewDoc × Action)} {d d' : App}
    {db : Store ReviewDoc} {item : Toilet}
    (hrun : run (App.act getDistance localeCompare userOf) (App.start ss) xs = some d)
    (hstep : d.step getDistance localeCompare userOf db (.pressRow item) = some d') :
    ∃ docs doc position, FirstScreen.Event.query docs ∈ listEvents xs ∧ doc ∈ docs ∧
      item = record getDistance position doc ∧
      ∀ f, pressedOdd (listEvents xs) f = true → (facility doc f).truthy = true := by
  simp only [App.step] at hstep
  split at hstep
  · cases hstep
  · next s hscreens =>
    obtain ⟨hlists, -⟩ := Option.ite_none_right_eq_some.1 hstep
    have hlist := list_run ss hrun hscreens
    unfold Screens.lists at hlists
    split at hlists
    · next shown hshown =>
      obtain ⟨-, hfilter⟩ := shown_eq_filter hlist hshown
      have hmem : item ∈ s.first.state.toilets.filter (ToiletFilter.hasChecked s.first.state) :=
        hfilter ▸ of_decide_eq_true hlists
      obtain ⟨hitem, hchecked⟩ := List.mem_filter.1 hmem
      obtain ⟨docs, doc, position, hquery, hdoc, rfl⟩ := recorded_run hlist item hitem
      refine ⟨docs, doc, position, hquery, hdoc, rfl, ?_⟩
      intro f hf
      have hbox := List.all_eq_true.1 hchecked f (by cases f <;> simp [FacilityType.all])
      rw [boxes_run hlist, hf, Bool.not_true, Bool.false_or] at hbox
      cases f <;> exact hbox
    · cases hlists

/-- In every run of the app: a mounted details page shows the data of a document that the query of the
list delivered. When its row was pressed, which is the last row that was, the document had every
facility whose box had been pressed an odd number of times. -/
theorem page_shows_document (ss : Sessions) {xs : List (Store ReviewDoc × Action)} {d : App}
    (hrun : run (App.act getDistance localeCompare userOf) (App.start ss) xs = some d)
    {first : FirstScreen.Mounted} {p : Page} (hpage : d.screens = .ok ⟨first, some p⟩) :
    ∃ ys db item zs docs doc, xs = ys ++ (db, .pressRow item) :: zs ∧ zs.filterMap row = [] ∧
      FirstScreen.Event.query docs ∈ listEvents ys ∧ doc ∈ docs ∧
      p.details.render p.detailsParams = .ok (documentView doc p.details.state) ∧
      ∀ f, pressedOdd (listEvents ys) f = true → (facility doc f).truthy = true := by
  obtain ⟨⟨item, hlast, hparams⟩, -⟩ := displays_run ss hrun first p hpage
  obtain ⟨ys, db, zs, rfl, hzs⟩ := exists_split_of_lastRow hlast
  obtain ⟨d₁, hys, hrest⟩ := run_append_iff.1 hrun
  obtain ⟨d₂, hpress, -⟩ := run_cons_iff.1 hrest
  obtain ⟨docs, doc, position, hquery, hdoc, rfl, hfacility⟩ := document_of_press ss hys hpress
  refine ⟨ys, db, _, zs, docs, doc, rfl, hzs, hquery, hdoc, ?_, hfacility⟩
  unfold Page.detailsParams
  rw [hparams]
  rfl

end

/-- The box of the bidet is checked, and the row of COM1 is pressed. -/
def pressesBidetAndRow : List (Store ReviewDoc × Action) :=
  [.first (.position ⟨⟨1, 103⟩⟩), .first (.query [oneToilet]), .first .changeState,
    .first (.press (.filter .bidet)), .first .backdropPress,
    .pressRow (record (fun _ _ _ => 0) ⟨⟨1, 103⟩⟩ oneToilet)].map fun a => (∅, a)

/-- The page of COM1, which has a bidet. -/
theorem page_shows_document_bidet :
    ∃ d first p,
      run (App.act (fun _ _ _ => 0) (fun _ _ => 0) fun user => ⟨user.id, some user.name, none⟩)
        (App.start annsSessions) pressesBidetAndRow = some d ∧ d.screens = .ok ⟨first, some p⟩ ∧
      ∃ ys db item zs docs doc, pressesBidetAndRow = ys ++ (db, .pressRow item) :: zs ∧
        zs.filterMap row = [] ∧ FirstScreen.Event.query docs ∈ listEvents ys ∧ doc ∈ docs ∧
        p.details.render p.detailsParams = .ok (documentView doc p.details.state) ∧
        ∀ f, pressedOdd (listEvents ys) f = true → (facility doc f).truthy = true := by
  have hrun : run (App.act (fun _ _ _ => 0) (fun _ _ => 0)
      fun user => ⟨user.id, some user.name, none⟩) (App.start annsSessions) pressesBidetAndRow =
      some _ := rfl
  exact ⟨_, _, _, hrun, rfl, page_shows_document annsSessions hrun rfl⟩

end LetItGo.Properties.PageShowsDocument
