import LetItGo.Components.FirstScreen

/-!
# FacilitiesListItem

One line of 'At a glance' on the details page: an icon and a title by the type of the facility, the
title struck through unless the facility is there.
-/

set_option autoImplicit false

namespace LetItGo.Components.FacilitiesListItem

open LetItGo.Library.Js
open LetItGo.Components.FirstScreen (FacilityType)

def emojiToShow : FacilityType → String
  | .male => "🙋‍♂️"
  -- no sign follows the joiner
  | .female => "🙋‍"
  | .handicapped => "♿"
  | .waterCooler => "🚰"
  | .shower => "🚿"
  | .bidet => "💦"

def titles : FacilityType → String
  | .male => "Has Male Toilet"
  | .female => "Has Female Toilet"
  | .handicapped => "Is Wheelchair Accessible"
  | .waterCooler => "Has Water Cooler"
  | .shower => "Has Shower Head"
  | .bidet => "Has Bidet Spray"

structure Props where
  type : FacilityType
  isAvail : Value
  deriving DecidableEq, Repr

inductive TextDecorationLine where
  | none
  | lineThrough
  deriving DecidableEq, Repr

structure View where
  icon : String
  title : String
  textDecorationLine : TextDecorationLine
  deriving DecidableEq, Repr

/-- `render()`. -/
def render (props : Props) : View where
  icon := emojiToShow props.type
  title := titles props.type
  textDecorationLine := if props.isAvail.truthy then .none else .lineThrough

end LetItGo.Components.FacilitiesListItem
