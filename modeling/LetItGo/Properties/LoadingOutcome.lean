import LetItGo.Properties.ToiletLoading

/-!
# Loading is decided once

The query of the toilets is asked once and never again. Whatever else happens on the screen, its
answer decides what the screen is for the rest of its life: with a position answered before it, or
with no documents, the toilets are there and stay there, and what is rendered is always the filter of
them; otherwise the activity indicator stays, after one alert, and no later event removes it
(`loading_decided`).
-/

set_option autoImplicit false

namespace LetItGo.Properties.LoadingOutcome

open LetItGo.Library.Js
open LetItGo.Library.Runs
open LetItGo.Components.FirstScreen
open LetItGo.Properties.ToiletLoading (oneToilet record buildToilets_some buildToilets_none)

/-- The query is answered with documents whose records are the toilets: the position is there for them,
or there are none. -/
def Loads (getDistance : Coords → Coords → ℚ → ℚ) (es : List Event) (toilets : List Toilet) : Prop :=
  ∃ pre docs post, es = pre ++ .query docs :: post ∧
    (docs = [] ∧ toilets = [] ∨
      ∃ p, Event.position p ∈ pre ∧ toilets = docs.map (record getDistance p))

def Alert.isLoading : Alert → Bool
  | .geolocation _ _ => false
  | .loading _ => true

/-- The number of alerts for the loading. -/
def failures (m : Mounted) : ℕ := m.alerts.countP Alert.isLoading

/-- The toilets have loaded, without an alert for it. -/
structure Loaded (toilets : List Toilet) (m : Mounted) : Prop where
  notLoading : m.state.isLoading = false
  noAlert : failures m = 0
  toilets : m.state.toilets.Perm toilets

/-- The loading has failed, with one alert for it. -/
def Failed (m : Mounted) : Prop := m.state.isLoading = true ∧ failures m = 1

variable {getDistance : Coords → Coords → ℚ → ℚ} {localeCompare : String → String → ℤ}

/-! ## One event -/

theorem distance_of_event {m m' : Mounted} {e : Event}
    (h : m.step getDistance localeCompare e = some m') :
    (∃ p, e = .position p ∧ m'.distance = some p) ∨
      (∀ p, e ≠ .position p) ∧ m'.distance = m.distance := by
  cases e with
  | position p =>
    obtain ⟨-, heq⟩ := Option.ite_none_right_eq_some.1 h
    cases heq
    exact Or.inl ⟨p, rfl, rfl⟩
  | query docs =>
    obtain ⟨-, heq⟩ := Option.ite_none_right_eq_some.1 h
    cases heq
    refine Or.inr ⟨by simp, ?_⟩
    unfold Mounted.queryArrived
    split <;> rfl
  | changeState =>
    cases h
    exact Or.inr ⟨by simp, rfl⟩
  | _ =>
    obtain ⟨-, heq⟩ := Option.ite_none_right_eq_some.1 h
    cases heq
    exact Or.inr ⟨by simp, rfl⟩

/-- Only an answer to the query tells on the loading. -/
theorem loading_of_event {m m' : Mounted} {e : Event}
    (h : m.step getDistance localeCompare e = some m') (hquery : ∀ docs, e ≠ .query docs)
    (herror : ∀ reason, e ≠ .queryError reason) :
    m'.queryPending = m.queryPending ∧ m'.state.isLoading = m.state.isLoading ∧
      failures m' = failures m := by
  cases e with
  | query docs => exact absurd rfl (hquery docs)
  | queryError reason => exact absurd rfl (herror reason)
  | changeState =>
    cases h
    exact ⟨rfl, rfl, rfl⟩
  | positionError code message =>
    obtain ⟨-, heq⟩ := Option.ite_none_right_eq_some.1 h
    cases heq
    refine ⟨rfl, rfl, ?_⟩
    simp only [failures, List.countP_append]
    rfl
  | press box =>
    obtain ⟨-, heq⟩ := Option.ite_none_right_eq_some.1 h
    cases heq
    refine ⟨rfl, ?_, rfl⟩
    cases box with
    | filter f => cases f <;> rfl
    | _ => rfl
  | _ =>
    obtain ⟨-, heq⟩ := Option.ite_none_right_eq_some.1 h
    cases heq
    exact ⟨rfl, rfl, rfl⟩

/-- And only it brings toilets; a box can put them in another order. -/
theorem toilets_of_event {m m' : Mounted} {e : Event}
    (h : m.step getDistance localeCompare e = some m') (hquery : ∀ docs, e ≠ .query docs) :
    m'.state.toilets.Perm m.state.toilets := by
  rcases Mounted.step_state_cases h with ⟨visible, hst⟩ | ⟨docs, toilets, he, -⟩ | ⟨box, -, -, hst⟩
  · rw [hst]
  · exact absurd he (hquery docs)
  · rw [hst]
    exact m.state.press_perm localeCompare box

/-- Once the query is answered its outcome stays. -/
theorem answered_step {m m' : Mounted} {e : Event} (hanswered : m.queryPending = false)
    (h : m.step getDistance localeCompare e = some m') :
    m'.queryPending = false ∧ (∀ toilets, Loaded toilets m → Loaded toilets m') ∧
      (Failed m → Failed m') := by
  have hquery : ∀ docs, e ≠ .query docs := by
    rintro docs rfl
    simp [Mounted.step, hanswered] at h
  have herror : ∀ reason, e ≠ .queryError reason := by
    rintro reason rfl
    simp [Mounted.step, hanswered] at h
  obtain ⟨hpending, hloading, hfailures⟩ := loading_of_event h hquery herror
  refine ⟨hpending.trans hanswered, ?_, ?_⟩
  · rintro toilets ⟨hnot, hno, hperm⟩
    exact ⟨hloading.trans hnot, hfailures.trans hno, (toilets_of_event h hquery).trans hperm⟩
  · rintro ⟨hstill, hone⟩
    exact ⟨hloading.trans hstill, hfailures.trans hone⟩

/-- An event of a sequence is the last one or comes before it. -/
theorem split_append_singleton {es pre post : List Event} {e a : Event}
    (h : es ++ [e] = pre ++ a :: post) : es = pre ∧ e = a ∨ ∃ post', es = pre ++ a :: post' := by
  rcases List.eq_nil_or_concat' post with rfl | ⟨post, x, rfl⟩
  · exact Or.inl (List.append_singleton_inj.1 h)
  · rw [← List.cons_append, ← List.append_assoc] at h
    exact Or.inr ⟨post, (List.append_singleton_inj.1 h).1⟩

theorem loads_append_of_not_query {es : List Event} {e : Event} {toilets : List Toilet}
    (h : ∀ docs, e ≠ .query docs) :
    Loads getDistance (es ++ [e]) toilets ↔ Loads getDistance es toilets := by
  constructor
  · rintro ⟨pre, docs, post, heq, hdocs⟩
    rcases split_append_singleton heq with ⟨-, he⟩ | ⟨post', rfl⟩
    · exact absurd he (h docs)
    · exact ⟨pre, docs, post', rfl, hdocs⟩
  · rintro ⟨pre, docs, post, rfl, hdocs⟩
    exact ⟨pre, docs, post ++ [e], by simp, hdocs⟩

theorem loads_append_query {es : List Event} {docs : List ToiletDoc} {toilets : List Toilet}
    (h : ∀ docs, .query docs ∉ es) :
    Loads getDistance (es ++ [.query docs]) toilets ↔ docs = [] ∧ toilets = [] ∨
      ∃ p, Event.position p ∈ es ∧ toilets = docs.map (record getDistance p) := by
  constructor
  · rintro ⟨pre, docs', post, heq, hdocs⟩
    rcases split_append_singleton heq with ⟨rfl, he⟩ | ⟨post', rfl⟩
    · rw [Event.query.injEq] at he
      rwa [he]
    · exact absurd (List.mem_append_right pre List.mem_cons_self) (h docs')
  · exact fun hdocs => ⟨es, docs, [], rfl, hdocs⟩

theorem not_loads_of_no_query {es : List Event} (h : ∀ docs, .query docs ∉ es)
    (toilets : List Toilet) : ¬ Loads getDistance es toilets := by
  rintro ⟨pre, docs, post, rfl, -⟩
  exact h docs (List.mem_append_right pre List.mem_cons_self)

/-! ## The answer -/

theorem loaded_of_queryArrived {m : Mounted} {docs : List ToiletDoc} {toilets : List Toilet}
    (h : failures m = 0) (hbuild : buildToilets getDistance m.distance docs = .ok toilets) :
    Loaded toilets (m.queryArrived getDistance docs) := by
  simp only [Mounted.queryArrived, hbuild]
  exact ⟨rfl, h, sort_perm _ _⟩

theorem failed_of_queryArrived {m : Mounted} {docs : List ToiletDoc}
    (hloading : m.state.isLoading = true) (h : failures m = 0) (hdocs : docs ≠ [])
    (hnone : m.distance = none) : Failed (m.queryArrived getDistance docs) := by
  simp only [Mounted.queryArrived, hnone, buildToilets_none hdocs]
  refine ⟨hloading, ?_⟩
  simp only [failures, List.countP_append] at h ⊢
  rw [h]
  rfl

theorem queryPending_queryArrived (m : Mounted) (docs : List ToiletDoc) :
    (m.queryArrived getDistance docs).queryPending = false := by
  unfold Mounted.queryArrived
  split <;> rfl

/-! ## Every run -/

variable (getDistance) in
/-- What the events so far say of the loading. -/
structure Decided (es : List Event) (m : Mounted) : Prop where
  position : ∀ p, m.distance = some p → Event.position p ∈ es
  located : (∃ p, Event.position p ∈ es) → m.distance ≠ none
  pending : m.queryPending = true →
    (∀ docs, Event.query docs ∉ es) ∧ m.state.isLoading = true ∧ failures m = 0
  answered : m.queryPending = false →
    (∃ toilets, Loads getDistance es toilets ∧ Loaded toilets m) ∨
      (∀ toilets, ¬ Loads getDistance es toilets) ∧ Failed m

theorem position_step {es : List Event} {m m' : Mounted} {e : Event}
    (h : ∀ p, m.distance = some p → Event.position p ∈ es)
    (hstep : m.step getDistance localeCompare e = some m') :
    ∀ p, m'.distance = some p → Event.position p ∈ es ++ [e] := by
  intro p hp
  rcases distance_of_event hstep with ⟨q, rfl, hdistance⟩ | ⟨-, hdistance⟩
  · rw [hdistance] at hp
    cases hp
    exact List.mem_append_right es List.mem_cons_self
  · rw [hdistance] at hp
    exact List.mem_append_left _ (h p hp)

theorem located_step {es : List Event} {m m' : Mounted} {e : Event}
    (h : (∃ p, Event.position p ∈ es) → m.distance ≠ none)
    (hstep : m.step getDistance localeCompare e = some m') :
    (∃ p, Event.position p ∈ es ++ [e]) → m'.distance ≠ none := by
  rintro ⟨p, hp⟩
  rcases distance_of_event hstep with ⟨q, rfl, hdistance⟩ | ⟨hno, hdistance⟩
  · simp [hdistance]
  · rw [hdistance]
    rcases List.mem_append.1 hp with hp | hp
    · exact h ⟨p, hp⟩
    · exact absurd (List.mem_singleton.1 hp).symm (hno p)

/-- The answer decides. -/
theorem answered_query {es : List Event} {m : Mounted} {docs : List ToiletDoc}
    (h : Decided getDistance es m) (hpending : m.queryPending = true) :
    (∃ toilets, Loads getDistance (es ++ [.query docs]) toilets ∧
        Loaded toilets (m.queryArrived getDistance docs)) ∨
      (∀ toilets, ¬ Loads getDistance (es ++ [.query docs]) toilets) ∧
        Failed (m.queryArrived getDistance docs) := by
  obtain ⟨hno, hloading, hfailures⟩ := h.pending hpending
  cases hdistance : m.distance with
  | some p =>
    have hbuild : buildToilets getDistance m.distance docs = .ok (docs.map (record getDistance p)) := by
      rw [hdistance]
      exact buildToilets_some p docs
    refine Or.inl ⟨_, (loads_append_query hno).2 (Or.inr ⟨p, h.position p hdistance, rfl⟩), ?_⟩
    exact loaded_of_queryArrived hfailures hbuild
  | none =>
    by_cases hdocs : docs = []
    · -- no document asks for the position
      subst hdocs
      exact Or.inl ⟨[], (loads_append_query hno).2 (Or.inl ⟨rfl, rfl⟩),
        loaded_of_queryArrived hfailures rfl⟩
    · refine Or.inr ⟨fun toilets hloads => ?_,
        failed_of_queryArrived hloading hfailures hdocs hdistance⟩
      rcases (loads_append_query hno).1 hloads with ⟨hnil, -⟩ | ⟨p, hp, -⟩
      · exact hdocs hnil
      · exact h.located ⟨p, hp⟩ hdistance

theorem decided_step {es : List Event} {m m' : Mounted} {e : Event} (h : Decided getDistance es m)
    (hstep : m.step getDistance localeCompare e = some m') :
    Decided getDistance (es ++ [e]) m' := by
  refine ⟨position_step h.position hstep, located_step h.located hstep, ?_, ?_⟩
  · intro hpending'
    -- an answer would have ended the waiting
    have hquery : ∀ docs, e ≠ .query docs := by
      rintro docs rfl
      obtain ⟨-, heq⟩ := Option.ite_none_right_eq_some.1 hstep
      cases heq
      simp [queryPending_queryArrived] at hpending'
    have herror : ∀ reason, e ≠ .queryError reason := by
      rintro reason rfl
      obtain ⟨-, heq⟩ := Option.ite_none_right_eq_some.1 hstep
      cases heq
      cases hpending'
    obtain ⟨hpending, hloading, hfailures⟩ := loading_of_event hstep hquery herror
    rw [hpending] at hpending'
    obtain ⟨hno, hwas⟩ := h.pending hpending'
    rw [hloading, hfailures]
    refine ⟨fun docs hmem => ?_, hwas⟩
    rcases List.mem_append.1 hmem with hmem | hmem
    · exact hno docs hmem
    · exact hquery docs (List.mem_singleton.1 hmem).symm
  · intro hanswered'
    cases hpending : m.queryPending with
    | false =>
      obtain ⟨-, hloaded, hfailed⟩ := answered_step hpending hstep
      have hquery : ∀ docs, e ≠ .query docs := by
        rintro docs rfl
        simp [Mounted.step, hpending] at hstep
      simp only [loads_append_of_not_query hquery]
      rcases h.answered hpending with ⟨toilets, hloads, hm⟩ | ⟨hno, hm⟩
      · exact Or.inl ⟨toilets, hloads, hloaded _ hm⟩
      · exact Or.inr ⟨hno, hfailed hm⟩
    | true =>
      cases e with
      | query docs =>
        obtain ⟨-, heq⟩ := Option.ite_none_right_eq_some.1 hstep
        cases heq
        exact answered_query h hpending
      | queryError reason =>
        obtain ⟨-, heq⟩ := Option.ite_none_right_eq_some.1 hstep
        cases heq
        obtain ⟨hno, hloading, hfailures⟩ := h.pending hpending
        refine Or.inr ⟨fun toilets => ?_, hloading, ?_⟩
        · rw [loads_append_of_not_query (by simp)]
          exact not_loads_of_no_query hno toilets
        · simp only [failures, List.countP_append] at hfailures ⊢
          rw [hfailures]
          rfl
      | _ =>
        -- nothing else answers the query
        rw [(loading_of_event hstep (by simp) (by simp)).1, hpending] at hanswered'
        cases hanswered'

theorem decided_run {es : List Event} {m : Mounted}
    (hrun : run (Mounted.step getDistance localeCompare) mount es = some m) :
    Decided getDistance es m := by
  apply run_prefix_invariant _ _ hrun
  · refine ⟨by simp [mount], by simp, fun _ => ⟨by simp, rfl, rfl⟩, fun h => nomatch h⟩
  · exact fun as m a t _ h hstep => decided_step h hstep

/-- Once the query is answered, in every run that goes on from there: either the toilets are there for
good, what is rendered is the filter of them, and there is no alert for the loading; or the activity
indicator is there for good, with one. The first is the case exactly if there were no documents or the
position had been answered before, and the toilets are the records of the documents. -/
theorem loading_decided {es : List Event} {m : Mounted}
    (hrun : run (Mounted.step getDistance localeCompare) mount es = some m)
    (hanswered : m.queryPending = false) :
    (∃ toilets, Loads getDistance es toilets ∧
      ∀ es' m', run (Mounted.step getDistance localeCompare) m es' = some m' →
        m'.state.toilets.Perm toilets ∧
        render m'.state = (filter (filterToilet m'.state) m'.state.toilets).map .list ∧
        failures m' = 0) ∨
    ((∀ toilets, ¬ Loads getDistance es toilets) ∧
      ∀ es' m', run (Mounted.step getDistance localeCompare) m es' = some m' →
        render m'.state = .ok .activityIndicator ∧ failures m' = 1) := by
  rcases (decided_run hrun).answered hanswered with ⟨toilets, hloads, hloaded⟩ | ⟨hno, hfailed⟩
  · refine Or.inl ⟨toilets, hloads, fun es' m' hrun' => ?_⟩
    obtain ⟨-, hnot, halert, hperm⟩ : m'.queryPending = false ∧ Loaded toilets m' := by
      refine run_invariant (I := fun n : Mounted => n.queryPending = false ∧ Loaded toilets n) ?_
        ⟨hanswered, hloaded⟩ hrun'
      intro n e n' hn hstep
      obtain ⟨hpending, hstays, -⟩ := answered_step hn.1 hstep
      exact ⟨hpending, hstays toilets hn.2⟩
    exact ⟨hperm, by simp [render, hnot], halert⟩
  · refine Or.inr ⟨hno, fun es' m' hrun' => ?_⟩
    obtain ⟨-, hloading, halert⟩ : m'.queryPending = false ∧ Failed m' := by
      refine run_invariant (I := fun n : Mounted => n.queryPending = false ∧ Failed n) ?_
        ⟨hanswered, hfailed⟩ hrun'
      intro n e n' hn hstep
      obtain ⟨hpending, -, hstays⟩ := answered_step hn.1 hstep
      exact ⟨hpending, hstays hn.2⟩
    exact ⟨by simp [render, hloading], halert⟩

/-- The query answered first, with a document: the position that comes after it does not bring the
list. -/
theorem loading_decided_query_first :
    ∃ m, run (Mounted.step (fun _ _ _ => 0) fun _ _ => 0) mount [.query [oneToilet]] = some m ∧
      ((∃ toilets, Loads (fun _ _ _ => 0) [.query [oneToilet]] toilets ∧ ∀ es' m',
        run (Mounted.step (fun _ _ _ => 0) fun _ _ => 0) m es' = some m' →
          m'.state.toilets.Perm toilets ∧
          render m'.state = (filter (filterToilet m'.state) m'.state.toilets).map .list ∧
          failures m' = 0) ∨
      ((∀ toilets, ¬ Loads (fun _ _ _ => 0) [.query [oneToilet]] toilets) ∧ ∀ es' m',
        run (Mounted.step (fun _ _ _ => 0) fun _ _ => 0) m es' = some m' →
          render m'.state = .ok .activityIndicator ∧ failures m' = 1)) :=
  ⟨_, rfl, loading_decided rfl rfl⟩

end LetItGo.Properties.LoadingOutcome
