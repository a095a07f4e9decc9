import LetItGo.Properties.Submissions

/-!
# The toilet on the page

Whatever else happens, the details page shows the toilet of the row that was pressed last: its
position on the map, its panorama, its name on the marker and in 'At a glance', and its six
facilities, each struck through unless it is there. The reviews are read from the collection of a row
pressed earlier, the one that opened the page. What is written goes to the toilet that is shown
(`posts_of_lastRow`).
-/

set_option autoImplicit false

namespace LetItGo.Properties.PageOfLastRow

open LetItGo.Library.DocumentStore
open LetItGo.Library.Runs
open LetItGo.Components
open LetItGo.Components.FirstScreen (Coords FacilityType Toilet isAvail)
open LetItGo.Components.ReviewSubmissionScreen (ReviewDoc)
open LetItGo.Components.SignIn (GoogleUser Sessions User)
open LetItGo.Properties.CrashFreedom (annsSessions)
open LetItGo.Properties.Submissions (annSubmits annsWrite)
open LetItGo.Properties.ToiletLoading (oneToilet record)
open LetItGo.Systems.Navigator (onPress)
open LetItGo.Systems.WholeApp

def row : Store ReviewDoc × Action → Option Toilet
  | (_, .pressRow item) => some item
  | _ => none

/-- The row that was pressed last. -/
def lastRow (xs : List (Store ReviewDoc × Action)) : Option Toilet := (xs.filterMap row).getLast?

/-- What the details page shows of a toilet, over the state of the page. -/
def toiletView (item : Toilet) (st : DetailsScreen.State) : DetailsScreen.DetailsView where
  region := ⟨some item.lat, some item.lon⟩
  markerTitle := item.name ++ " Toilet"
  imgURL := item.paranomaUrl
  overlayVisible := st.isVisible
  title := item.name
  facilities := FacilityType.all.map fun f =>
    { icon := FacilitiesListItem.emojiToShow f
      title := FacilitiesListItem.titles f
      textDecorationLine := if (isAvail item f).truthy then .none else .lineThrough }
  card := ⟨st.avgRating, st.reviews, item.name⟩

theorem lastRow_concat (xs : List (Store ReviewDoc × Action)) (x : Store ReviewDoc × Action) :
    lastRow (xs ++ [x]) = (row x).or (lastRow xs) := by
  cases hrow : row x <;> simp [lastRow, List.filterMap_append, hrow]

/-- The parameters of a row replace all those of another. -/
theorem onPress_merge (item other : Toilet) : (onPress item).merge (onPress other) = onPress item :=
  rfl

/-- The page has the parameters of the last row, and reads the collection of some row. -/
def Displays (xs : List (Store ReviewDoc × Action)) (d : App) : Prop :=
  ∀ first p, d.screens = .ok ⟨first, some p⟩ →
    (∃ item, lastRow xs = some item ∧ p.params = onPress item) ∧
      ∃ opener, opener ∈ xs.filterMap row ∧
        p.ref = DetailsScreen.constructorRef (some opener.name)

section

variable {getDistance : Coords → Coords → ℚ → ℚ} {localeCompare : String → String → ℤ}
  {userOf : GoogleUser → User}

/-- Nothing but a row changes the parameters. -/
theorem params_of_change {db : Store ReviewDoc} {known : List (DocRef × ReviewDoc)} {nextKey : ℕ}
    {p p' : Page} {a : Action} (h : Page.Change db known nextKey p a p')
    (ha : ∀ item, a ≠ .pressRow item) : p'.params = p.params := by
  cases h with
  | update item => exact absurd rfl (ha item)
  | setAuth =>
    unfold Page.setAuth
    split <;> rfl
  | stays => rfl
  | details => rfl
  | takeLocal => rfl
  | card => rfl
  | openForm => rfl
  | form => rfl
  | closed => rfl

theorem displays_next {xs : List (Store ReviewDoc × Action)} {d d' : App} {db : Store ReviewDoc}
    {a : Action} (h : Displays xs d) (hnext : App.Next getDistance localeCompare userOf db d a d') :
    Displays (xs ++ [(db, a)]) d' := by
  intro first' p' hscreens'
  by_cases hrow : ∃ item, a = .pressRow item
  · obtain ⟨item, rfl⟩ := hrow
    have hlast : lastRow (xs ++ [(db, .pressRow item)]) = some item := by
      rw [lastRow_concat]
      rfl
    cases hnext with
    | constructorFails => cases hscreens'
    | mountFails => cases hscreens'
    | mountPage =>
      obtain ⟨heq, -⟩ := App.display_screens_eq_ok_iff.1 hscreens'
      cases heq
      exact ⟨⟨item, hlast, rfl⟩, item, by simp [List.filterMap_append, row], rfl⟩
    | @pressAgain first p _ hscreens =>
      obtain ⟨heq, -⟩ := App.display_screens_eq_ok_iff.1 hscreens'
      cases heq
      obtain ⟨⟨other, -, hparams⟩, opener, hmem, href⟩ := h _ p hscreens
      refine ⟨⟨item, hlast, ?_⟩, opener, by simp [List.filterMap_append, hmem], href⟩
      show (onPress item).merge p.params = onPress item
      rw [hparams, onPress_merge]
  · have ha : ∀ item, a ≠ .pressRow item := fun item heq => hrow ⟨item, heq⟩
    have hnone : row (db, a) = none := by
      cases a with
      | pressRow item => exact absurd rfl (ha item)
      | _ => rfl
    rcases App.page_of_next hnext hscreens' with ⟨item, doc, heq, -⟩ | ⟨first, p, hscreens, hchange⟩
    · exact absurd heq (ha item)
    · obtain ⟨⟨item, hlast, hparams⟩, opener, hmem, href⟩ := h first p hscreens
      refine ⟨⟨item, ?_, ?_⟩, opener, by simp [List.filterMap_append, hmem], ?_⟩
      · rw [lastRow_concat, hnone]
        exact hlast
      · rw [params_of_change hchange ha]
        exact hparams
      · rw [hchange.key_ref.2]
        exact href

theorem displays_run (ss : Sessions) {xs : List (Store ReviewDoc × Action)} {d : App}
    (hrun : run (App.act getDistance localeCompare userOf) (App.start ss) xs = some d) :
    Displays xs d := by
  refine run_prefix_invariant (I := Displays) ?_ ?_ hrun
  · rintro first p ⟨⟩
  · rintro ys d₁ ⟨db, a⟩ d₂ - h hstep
    exact displays_next h (App.next_of_step hstep)

/-- In every run of the app: a mounted details page shows the toilet of the row that was pressed last,
and reads the reviews of a row that was pressed. -/
theorem page_of_lastRow (ss : Sessions) {xs : List (Store ReviewDoc × Action)} {d : App}
    (hrun : run (App.act getDistance localeCompare userOf) (App.start ss) xs = some d)
    {first : FirstScreen.Mounted} {p : Page} (hpage : d.screens = .ok ⟨first, some p⟩) :
    ∃ item opener, lastRow xs = some item ∧
      p.details.render p.detailsParams = .ok (toiletView item p.details.state) ∧
      opener ∈ xs.filterMap row ∧ p.ref = DetailsScreen.constructorRef (some opener.name) := by
  obtain ⟨⟨item, hlast, hparams⟩, opener, hmem, href⟩ := displays_run ss hrun first p hpage
  refine ⟨item, opener, hlast, ?_, hmem, href⟩
  unfold Page.detailsParams
  rw [hparams]
  rfl

end

/-- Ann's run: the page of COM1. -/
theorem page_of_lastRow_ann :
    ∃ d first p,
      run (App.act (fun _ _ _ => 0) (fun _ _ => 0) fun user => ⟨user.id, some user.name, none⟩)
        (App.start annsSessions) (annSubmits ∅) = some d ∧ d.screens = .ok ⟨first, some p⟩ ∧
      ∃ item opener, lastRow (annSubmits ∅) = some item ∧
        p.details.render p.detailsParams = .ok (toiletView item p.details.state) ∧
        opener ∈ (annSubmits ∅).filterMap row ∧
        p.ref = DetailsScreen.constructorRef (some opener.name) := by
  have hrun : run (App.act (fun _ _ _ => 0) (fun _ _ => 0)
      fun user => ⟨user.id, some user.name, none⟩) (App.start annsSessions) (annSubmits ∅) = some _ :=
    rfl
  exact ⟨_, _, _, hrun, rfl, page_of_lastRow annsSessions hrun rfl⟩

/-! ## Where a review goes -/

/-- A submission screen has the collection of the toilet on the page below it. -/
def FormsTitle (d : App) : Prop :=
  ∀ first p f, d.screens = .ok ⟨first, some p⟩ → p.form = some f →
    f.screen.ref = DetailsScreen.constructorRef p.params.title

/-- The write was sent by a press of Submit, for the toilet of the row that was pressed last before. -/
def SentFrom (xs : List (Store ReviewDoc × Action)) (write : DocRef × ReviewDoc) : Prop :=
  ∃ ys db now zs item, xs = ys ++ (db, .pressSubmit now) :: zs ∧ lastRow ys = some item ∧
    write.1 = (DetailsScreen.constructorRef (some item.name)).doc write.2.review.uid ∧
    write.2.review.date = now

theorem SentFrom.extend {xs : List (Store ReviewDoc × Action)} {write : DocRef × ReviewDoc}
    (h : SentFrom xs write) (x : Store ReviewDoc × Action) : SentFrom (xs ++ [x]) write := by
  obtain ⟨ys, db, now, zs, item, rfl, hlast, hwrite⟩ := h
  exact ⟨ys, db, now, zs ++ [x], item, by simp, hlast, hwrite⟩

section

variable {getDistance : Coords → Coords → ℚ → ℚ} {localeCompare : String → String → ℤ}
  {userOf : GoogleUser → User}

/-- New parameters come with the way back from the submission screen. -/
theorem params_or_form_of_change {db : Store ReviewDoc} {known : List (DocRef × ReviewDoc)}
    {nextKey : ℕ} {p p' : Page} {a : Action} (h : Page.Change db known nextKey p a p') :
    p'.params = p.params ∨ p'.form = none := by
  cases h with
  | update item => exact Or.inr rfl
  | setAuth =>
    apply Or.inl
    unfold Page.setAuth
    split <;> rfl
  | stays => exact Or.inl rfl
  | details => exact Or.inl rfl
  | takeLocal => exact Or.inl rfl
  | card => exact Or.inl rfl
  | openForm => exact Or.inl rfl
  | form => exact Or.inl rfl
  | closed => exact Or.inl rfl

theorem formsTitle_next {d d' : App} {db : Store ReviewDoc} {a : Action} (h : FormsTitle d)
    (hnext : App.Next getDistance localeCompare userOf db d a d') : FormsTitle d' := by
  intro first' p' f' hscreens' hform'
  rcases App.page_of_next hnext hscreens' with ⟨item, doc, -, -, -, rfl⟩ |
    ⟨first, p, hscreens, hchange⟩
  · cases hform'
  · have hparams : p'.params = p.params :=
      (params_or_form_of_change hchange).resolve_right (by simp [hform'])
    rw [hparams]
    rcases Page.form_of_change hchange hform' with ⟨count, -, -, rfl⟩ | ⟨f, hform, hstays⟩
    · -- a screen that has just been opened
      show DetailsScreen.constructorRef (some (p.params.title.getD "COM1")) = _
      cases p.params.title <;> rfl
    · rw [hstays.key_ref.2]
      exact h first p f hscreens hform

/-- What a press of Submit sends is the current user's document among those of the screen. -/
theorem pressSubmit_place {m : ReviewSubmissionScreen.Mounted} {currentUser : Option User}
    {now : ReviewSubmissionScreen.Timestamp} {write : DocRef × ReviewDoc}
    (h : m.pressSubmit currentUser now = some (.ok write)) :
    write.1 = m.ref.doc write.2.review.uid ∧ write.2.review.date = now := by
  unfold ReviewSubmissionScreen.Mounted.pressSubmit at h
  split at h
  · obtain ⟨text, -, hwrite⟩ := Option.map_eq_some_iff.1 h
    cases currentUser with
    | none => cases hwrite
    | some user =>
      cases hwrite
      exact ⟨rfl, rfl⟩
  · cases h

/-- In every run of the app: what the server writes was sent by a press of Submit, at the time of the
review, and goes to the author's document of the toilet whose row had been pressed last by then, which
is the toilet that the page showed. -/
theorem posts_of_lastRow (ss : Sessions) {xs : List (Store ReviewDoc × Action)} {d : App}
    (hrun : run (App.act getDistance localeCompare userOf) (App.start ss) xs = some d) {a : Action}
    {write : DocRef × ReviewDoc} (hpost : write ∈ d.posts a) : SentFrom xs write := by
  have hall : FormsTitle d ∧ ∀ r ∈ d.sets, SentFrom xs r.write := by
    refine run_prefix_invariant (I := fun xs (d : App) =>
      FormsTitle d ∧ ∀ r ∈ d.sets, SentFrom xs r.write) ?_ ?_ hrun
    · refine ⟨?_, ?_⟩
      · rintro first p f ⟨⟩
      · intro r hr
        cases hr
    · rintro ys d₁ ⟨db, a⟩ d₂ hys ⟨htitle, hsets⟩ hstep
      have hnext := App.next_of_step hstep
      refine ⟨formsTitle_next htitle hnext, ?_⟩
      intro r' hr'
      rcases App.mem_sets_of_next hnext hr' with ⟨r, hr, -, hwrite⟩ |
        ⟨first, p, f, now, rfl, hscreens, hform, -, hsubmit⟩
      · rw [hwrite]
        exact (hsets r hr).extend (db, a)
      · -- the page below the form shows the last row, and the form has its collection
        obtain ⟨⟨item, hlast, hparams⟩, -⟩ := displays_run ss hys first p hscreens
        obtain ⟨hplace, hdate⟩ := pressSubmit_place hsubmit
        refine ⟨ys, db, now, [], item, rfl, hlast, ?_, hdate⟩
        rw [hplace, htitle first p f hscreens hform, hparams]
        rfl
  obtain ⟨i, r, -, hr, rfl⟩ := App.mem_posts hpost
  exact hall.2 r (List.mem_of_getElem? hr)

end

/-- Ann has submitted her review; what the server writes goes to COM1. -/
theorem posts_of_lastRow_ann :
    ∃ d, run (App.act (fun _ _ _ => 0) (fun _ _ => 0) fun user => ⟨user.id, some user.name, none⟩)
        (App.start annsSessions) (annSubmits ∅) = some d ∧
      annsWrite ∈ d.posts (.set (.commit 0)) ∧ SentFrom (annSubmits ∅) annsWrite := by
  have hrun : run (App.act (fun _ _ _ => 0) (fun _ _ => 0)
      fun user => ⟨user.id, some user.name, none⟩) (App.start annsSessions) (annSubmits ∅) = some _ :=
    rfl
  refine ⟨_, hrun, ?_, posts_of_lastRow annsSessions hrun (a := .set (.commit 0)) ?_⟩ <;>
    exact List.mem_singleton.2 rfl

end LetItGo.Properties.PageOfLastRow
