import LetItGo.Components.FacilitiesListItem
import LetItGo.Components.Reviews

/-!
# The details page on screen

`render` of DetailsScreen: the map with its marker, the panorama, the facilities and the review card.
All but the card comes from the parameters of the route. A parameter that is missing has a default,
the string `'Default'` for the position and the panorama, and `'COM1'` for the title and the toilet;
the facilities of a string are undefined, and reading one of them throws.
-/

set_option autoImplicit false

namespace LetItGo.Components.DetailsScreen

open LetItGo.Library.Js
open LetItGo.Components.FirstScreen (FacilityType Toilet isAvail)

/-- The parameters of the `Details` route that `render` reads. -/
structure DetailsParams where
  lat : Option ℚ
  lon : Option ℚ
  imgURL : Option String
  title : Option String
  toiletObj : Option Toilet
  deriving DecidableEq, Repr

/-- The `region` of the map, which is also the marker's `coordinate`; `none` is `'Default'`. -/
structure Region where
  latitude : Option ℚ
  longitude : Option ℚ
  deriving DecidableEq, Repr

structure DetailsView where
  region : Region
  markerTitle : String
  /-- in the page and in the overlay -/
  imgURL : String
  overlayVisible : Bool
  /-- the first line of 'At a glance' -/
  title : String
  facilities : List FacilitiesListItem.View
  /-- the properties of the review card -/
  card : Reviews.Props
  deriving DecidableEq, Repr

/-- `render()`. -/
def Details.render (d : Details) (p : DetailsParams) : Except Exception DetailsView :=
  match p.toiletObj with
  | none => .error (.typeError "toiletObj.facilities.male")
  | some toiletObj =>
    .ok
      { region := ⟨p.lat, p.lon⟩
        markerTitle := p.title.getD "COM1" ++ " Toilet"
        imgURL := p.imgURL.getD "Default"
        overlayVisible := d.state.isVisible
        title := p.title.getD "COM1"
        facilities := FacilityType.all.map fun f =>
          FacilitiesListItem.render ⟨f, isAvail toiletObj f⟩
        card := ⟨d.state.avgRating, d.state.reviews, p.title.getD "COM1"⟩ }

/-- The page is shown exactly if it has a toilet. -/
theorem Details.exists_render_iff {d : Details} {p : DetailsParams} :
    (∃ view, d.render p = .ok view) ↔ p.toiletObj.isSome = true := by
  unfold Details.render
  split
  · next h => simp [h]
  · next toiletObj h => simp [h]

end LetItGo.Components.DetailsScreen
