import WidgetToolkit.Font

/-!
# Settings

The font and the scale factor of new views, and the measures of tab strips in logical units. Some
values cannot be laid out with; `fault?` finds the first of them.
-/

namespace WidgetToolkit

structure TabSettings (K : Type) where
  /-- Left and right of a title. -/
  horizontalPadding : K
  /-- Above and below a title. -/
  verticalPadding : K
  /-- Above the titles that are not selected. -/
  topPadding : K
  /-- Between the bounds of a tab and its page. -/
  contentPadding : K
  /-- The text whose height is that of the titles. -/
  referenceText : String
  /-- Whether selecting the selected page counts as a change. -/
  notifyOnReselect : Bool
deriving BEq

structure Settings (K : Type) where
  font : Font
  /-- Device pixels per logical unit. -/
  scaleFactor : K
  tab : TabSettings K
deriving BEq

variable {K : Type} [Coord K]

def TabSettings.standard : TabSettings K where
  horizontalPadding := (2 : Nat)
  verticalPadding := (1 : Nat)
  topPadding := (1 : Nat)
  contentPadding := (5 : Nat)
  referenceText := "bp"
  notifyOnReselect := true

def Settings.standard : Settings K where
  font := .standard
  scaleFactor := 1
  tab := .standard

inductive Padding where
  | horizontal
  | vertical
  | top
  | content
deriving DecidableEq, Repr

def Padding.name : Padding → String
  | .horizontal => "horizontal_padding"
  | .vertical => "vertical_padding"
  | .top => "top_padding"
  | .content => "content_padding"

def TabSettings.padding (tab : TabSettings K) : Padding → K
  | .horizontal => tab.horizontalPadding
  | .vertical => tab.verticalPadding
  | .top => tab.topPadding
  | .content => tab.contentPadding

/-- A value that cannot be laid out with. -/
inductive SettingsFault (K : Type) where
  | scaleFactor (value : K)
  | fontSize (value : Float32)
  | padding (which : Padding) (value : K)
  | referenceText

namespace Settings

/-- The first fault. The scale factor and the font size must be finite and positive, paddings finite
and not negative, and the reference text not empty. -/
def fault? (settings : Settings K) : Option (SettingsFault K) :=
  if ¬ (Coord.isFinite settings.scaleFactor ∧ 0 < settings.scaleFactor) then
    some (.scaleFactor settings.scaleFactor)
  else if ¬ (settings.font.size.isFinite ∧ 0 < settings.font.size) then
    some (.fontSize settings.font.size)
  else
    let bad := [Padding.horizontal, .vertical, .top, .content].find? fun which =>
      !(Coord.isFinite (settings.tab.padding which) && decide (0 ≤ settings.tab.padding which))
    match bad with
    | some which => some (.padding which (settings.tab.padding which))
    | none => if settings.tab.referenceText.isEmpty then some .referenceText else none

def isValid (settings : Settings K) : Bool := settings.fault?.isNone

end Settings

namespace SettingsFault

def field : SettingsFault K → String
  | .scaleFactor _ => "scale_factor"
  | .fontSize _ => "font.size"
  | .padding which _ => "tab." ++ which.name
  | .referenceText => "tab.reference_text"

def reason : SettingsFault Float → String
  | .scaleFactor value => "must be positive, got " ++ Decimal.ofFloat value
  | .fontSize value => "must be positive, got " ++ Decimal.ofFloat32 value
  | .padding _ value => "must not be negative, got " ++ Decimal.ofFloat value
  | .referenceText => "must not be empty"

def message (fault : SettingsFault Float) : String :=
  "Invalid value for `" ++ fault.field ++ "`: " ++ fault.reason

end SettingsFault

end WidgetToolkit
