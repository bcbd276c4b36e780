import WidgetToolkit.Settings.Loading

/-!
# Faults of the settings of the environment

Whatever the environment and the files hold, the settings taken from them can be laid out with, but
for one fault: a scale factor of the environment that is read as infinity. The same scale factor in
a file is rejected with the file.
-/

namespace WidgetToolkit.Settings

open Float.Model (UnpackedFloat)

/-! ## Positive numbers -/

/-- Nothing is below what is not a number. -/
theorem not_lt_notANumber (u : UnpackedFloat) : u.lt .notANumber = false := by
  cases u <;> rfl

theorem isFinite_of_pos {x : Float} (positive : 0 < x) : x.isFinite = !x.isInf := by
  have model_lt : (0 : Float).toModel.lt x.toModel = true := by
    simpa only [LT.lt, Float.lt, decide_eq_true_eq] using positive
  have unpack_lt : (0 : Float).toModel.unpack.lt x.toModel.unpack = true := model_lt
  change x.toModel.unpack.isFinite = !x.toModel.unpack.isInf
  cases shape : x.toModel.unpack with
  | notANumber => rw [shape, not_lt_notANumber] at unpack_lt; contradiction
  | infinity => rfl
  | zero => rfl
  | finite => rfl

theorem scaleFactorOfText?_pos {text : String} {scale : Float}
    (read : scaleFactorOfText? text = some scale) : 0 < scale := by
  unfold scaleFactorOfText? at read
  split at read
  · split at read
    · rename_i positive
      cases read
      exact positive
    · contradiction
  · contradiction

/-! ## Files -/

theorem standard_fault? : (standard : Settings Float).fault? = none := by
  have valid : (standard : Settings Float).fault?.isNone = true := by decide +kernel
  exact Option.isNone_iff_eq_none.mp valid

theorem ofText_fault? {text : String} {settings : Settings Float}
    (read : ofText text = .ok settings) : settings.fault? = none := by
  unfold ofText at read
  split at read
  · contradiction
  · split at read
    · contradiction
    · rename_i sound
      cases read
      exact sound

theorem ofFile_fault? {files : FileTree} {path : String} {settings : Settings Float}
    (read : ofFile files path = .ok settings) : settings.fault? = none := by
  unfold ofFile at read
  split at read
  · exact ofText_fault? read
  · contradiction

theorem ofPath_fault? (files : FileTree) (path : Option String) :
    (ofPath files path).1.fault? = none := by
  cases path with
  | none => exact standard_fault?
  | some path =>
    simp only [ofPath]
    split
    · rename_i read
      exact ofFile_fault? read
    · exact standard_fault?

/-! ## The environment -/

/-- The scale factor with which the environment overrides that of the settings. -/
def Environment.scale? (environment : Environment) : Option Float :=
  environment.scaleFactor.bind scaleFactorOfText?

theorem ofEnvironment_fst (files : FileTree) (environment : Environment) :
    (ofEnvironment files environment).1 =
      match environment.scale? with
      | none => (ofPath files environment.settingsPath).1
      | some scale => { (ofPath files environment.settingsPath).1 with scaleFactor := scale } := by
  obtain ⟨path, scaleFactor⟩ := environment
  cases scaleFactor with
  | none => rfl
  | some text =>
    simp only [ofEnvironment, Environment.scale?, Option.bind_some]
    cases scaleFactorOfText? text <;> rfl

/-- The checks of the other values do not depend on the scale factor. -/
theorem fault?_withScale {settings : Settings Float} (sound : settings.fault? = none)
    {scale : Float} (positive : 0 < scale) :
    { settings with scaleFactor := scale }.fault? =
      if scale.isInf then some (.scaleFactor scale) else none := by
  have finite : Coord.isFinite scale = !scale.isInf := isFinite_of_pos positive
  unfold fault? at sound ⊢
  split at sound
  · contradiction
  · by_cases infinite : scale.isInf
    · simp [finite, infinite]
    · have laidOut : ¬ ¬ (Coord.isFinite scale ∧ 0 < scale) := by simp [finite, infinite, positive]
      rw [if_neg infinite]
      exact (if_neg laidOut).trans sound

/-- The only fault that settings from the environment can have is an infinite scale factor of the
environment, which the test for a positive number lets pass. -/
theorem ofEnvironment_fault_infinite (files : FileTree) (environment : Environment) :
    (ofEnvironment files environment).1.fault? =
      (environment.scale?.filter Float.isInf).map SettingsFault.scaleFactor := by
  have sound := ofPath_fault? files environment.settingsPath
  rw [ofEnvironment_fst]
  cases override : environment.scale? with
  | none => exact sound
  | some scale =>
    have positive : 0 < scale := by
      obtain ⟨text, -, read⟩ := Option.bind_eq_some_iff.mp override
      exact scaleFactorOfText?_pos read
    rw [fault?_withScale sound positive]
    by_cases infinite : scale.isInf <;> simp [Option.filter, infinite]

/-- Where no settings are named, an infinite scale factor alone makes the settings invalid. -/
theorem ofEnvironment_invalid_infinite :
    (ofEnvironment .empty ⟨none, some "inf"⟩).1.isValid = false := by
  decide +kernel

end WidgetToolkit.Settings
