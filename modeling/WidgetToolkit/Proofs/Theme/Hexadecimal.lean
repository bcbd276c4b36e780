import Mathlib.Data.String.Basic
import Mathlib.Tactic.IntervalCases
import WidgetToolkit.Theme.Palette

/-! # The notation of colors

A color is a number sign and three or four channels of two hexadecimal digits, and nothing else but
for one thing: a plus sign may stand in the place of the first digit of a channel. Reading the
channels by their byte offsets never leaves the text and never cuts a character. -/

namespace WidgetToolkit

namespace Color

/-! ## Grammar -/

def lowerDigits : List Char := "0123456789abcdef".toList

def upperDigits : List Char := "0123456789ABCDEF".toList

/-- A hexadecimal digit of either case is worth its place among the sixteen. -/
def IsDigit (c : Char) (n : Nat) : Prop := lowerDigits[n]? = some c ∨ upperDigits[n]? = some c

/-- Two digits write a channel. -/
def IsPair (first second : Char) (channel : UInt8) : Prop :=
  ∃ high low, IsDigit first high ∧ IsDigit second low ∧ channel.toNat = 16 * high + low

/-- A plus sign and a digit are read as a channel, too. -/
def IsSignedDigit (first second : Char) (channel : UInt8) : Prop :=
  first = '+' ∧ IsDigit second channel.toNat

/-- What writes a color if the channels are written as told. A missing fourth channel is opaque. -/
inductive Spells (writes : Char → Char → UInt8 → Prop) : List Char → Color → Prop
  | solid {r r' g g' b b' : Char} {red green blue : UInt8} (hred : writes r r' red)
      (hgreen : writes g g' green) (hblue : writes b b' blue) :
      Spells writes ['#', r, r', g, g', b, b'] ⟨red, green, blue, 255⟩
  | withAlpha {r r' g g' b b' a a' : Char} {red green blue alpha : UInt8} (hred : writes r r' red)
      (hgreen : writes g g' green) (hblue : writes b b' blue) (halpha : writes a a' alpha) :
      Spells writes ['#', r, r', g, g', b, b', a, a'] ⟨red, green, blue, alpha⟩

/-! ## Digits and channels -/

/-- What holds of the characters of ASCII one by one holds of them all. -/
theorem forall_ascii {p : Char → Prop} (h : ∀ n < 128, p (Char.ofNat n)) {c : Char}
    (hc : c.toNat < 128) : p c := by
  simpa only [Char.ofNat_toNat] using h c.toNat hc

theorem ascii_of_hexDigit? {c : Char} {digit : UInt8} (h : hexDigit? c = some digit) :
    c.toNat < 128 := by
  have hrange : ∀ {last : Char}, c ≤ last → last.toNat < 128 → c.toNat < 128 := fun hle hlast =>
    lt_of_le_of_lt (UInt32.le_iff_toNat_le.mp (Char.le_def.mp hle)) hlast
  unfold hexDigit? at h
  split at h
  · rename_i hc
    exact hrange hc.2 (by decide)
  · split at h
    · rename_i hc
      exact hrange hc.2 (by decide)
    · split at h
      · rename_i hc
        exact hrange hc.2 (by decide)
      · contradiction

instance (c : Char) (n : Nat) : Decidable (IsDigit c n) :=
  inferInstanceAs (Decidable (_ ∨ _))

theorem IsDigit.lt {c : Char} {n : Nat} (h : IsDigit c n) : n < 16 := by
  rcases h with h | h <;> exact (List.getElem?_eq_some_iff.mp h).1

theorem hexDigit?_eq_some_iff {c : Char} {digit : UInt8} :
    hexDigit? c = some digit ↔ IsDigit c digit.toNat := by
  constructor
  · intro h
    have hall : ∀ n < 128, (hexDigit? (Char.ofNat n)).all fun digit =>
        IsDigit (Char.ofNat n) digit.toNat := by decide +kernel
    have hc := forall_ascii (p := fun c => (hexDigit? c).all fun digit => IsDigit c digit.toNat)
      hall (ascii_of_hexDigit? h)
    simpa [h] using hc
  · intro h
    have hlower : ∀ n < 16, lowerDigits[n]?.map hexDigit? = some (some n.toUInt8) := by decide
    have hupper : ∀ n < 16, upperDigits[n]?.map hexDigit? = some (some n.toUInt8) := by decide
    have hdigit : digit.toNat.toUInt8 = digit := UInt8.ofNat_toNat
    rw [← hdigit]
    have hlt := h.lt
    rcases h with hplace | hplace
    · simpa [hplace] using hlower _ hlt
    · simpa [hplace] using hupper _ hlt

/-- What a channel may be written with. -/
def IsChannel (first second : Char) (channel : UInt8) : Prop :=
  IsPair first second channel ∨ IsSignedDigit first second channel

theorem hexDigit?_of_isDigit {c : Char} {n : Nat} (h : IsDigit c n) :
    hexDigit? c = some n.toUInt8 := by
  refine hexDigit?_eq_some_iff.mpr ?_
  rwa [UInt8.toNat_ofNat_of_lt' (h.lt.trans (by decide))]

theorem not_isDigit_plus (n : Nat) : ¬IsDigit '+' n := fun h => by
  cases hexDigit?_of_isDigit h

theorem channel?_eq_some_iff {first second : Char} {channel : UInt8} :
    channel? first second = some channel ↔ IsChannel first second channel := by
  by_cases hplus : first = '+'
  · subst hplus
    have hpair : ¬IsPair '+' second channel := fun ⟨high, _, hhigh, _⟩ =>
      not_isDigit_plus high hhigh
    simp [channel?, IsChannel, IsSignedDigit, hpair, hexDigit?_eq_some_iff]
  · have hsigned : ¬IsSignedDigit first second channel := fun h => hplus h.1
    simp only [channel?, hplus, if_false, IsChannel, hsigned, or_false, Option.bind_eq_bind,
      Option.bind_eq_some_iff, Option.some.injEq, IsPair]
    constructor
    · rintro ⟨high, hhigh, low, hlow, rfl⟩
      have hhigh := hexDigit?_eq_some_iff.mp hhigh
      have hlow := hexDigit?_eq_some_iff.mp hlow
      refine ⟨_, _, hhigh, hlow, ?_⟩
      have := hhigh.lt
      have := hlow.lt
      simp [UInt8.toNat_add, UInt8.toNat_mul]
      omega
    · rintro ⟨high, low, hhigh, hlow, hchannel⟩
      refine ⟨_, hexDigit?_of_isDigit hhigh, _, hexDigit?_of_isDigit hlow, ?_⟩
      rw [← UInt8.ofNat_toNat (x := channel), hchannel]
      simp

/-- A text is read as the color that it spells, and no other text is read as a color. -/
theorem ofHex?_eq_some_iff {text : String} {color : Color} :
    ofHex? text = some color ↔ Spells IsChannel text.toList color := by
  constructor
  · intro h
    unfold ofHex? at h
    split at h
    · rename_i hlist
      simp only [Option.bind_eq_bind, Option.bind_eq_some_iff, channel?_eq_some_iff,
        Option.some.injEq] at h
      obtain ⟨red, hred, green, hgreen, blue, hblue, rfl⟩ := h
      rw [hlist]
      exact .solid hred hgreen hblue
    · rename_i hlist
      simp only [Option.bind_eq_bind, Option.bind_eq_some_iff, channel?_eq_some_iff,
        Option.some.injEq] at h
      obtain ⟨red, hred, green, hgreen, blue, hblue, alpha, halpha, rfl⟩ := h
      rw [hlist]
      exact .withAlpha hred hgreen hblue halpha
    · contradiction
  · intro h
    generalize hlist : text.toList = cs at h
    cases h with
    | solid hred hgreen hblue =>
        simp only [ofHex?, hlist, channel?_eq_some_iff.mpr hred, channel?_eq_some_iff.mpr hgreen,
          channel?_eq_some_iff.mpr hblue]
        rfl
    | withAlpha hred hgreen hblue halpha =>
        simp only [ofHex?, hlist, channel?_eq_some_iff.mpr hred, channel?_eq_some_iff.mpr hgreen,
          channel?_eq_some_iff.mpr hblue, channel?_eq_some_iff.mpr halpha]
        rfl

/-! ## Reading by byte offsets -/

/-- Two offsets that do not bound a part of the text. -/
structure BadSlice where
  start : String.Pos.Raw
  stop : String.Pos.Raw

/-- The part of a text between two byte offsets. Both have to be where a character begins or the
text ends. -/
def slice (text : String) (start stop : String.Pos.Raw) : Except BadSlice String :=
  if start ≤ stop ∧ start.isValid text ∧ stop.isValid text then .ok (start.extract text stop)
  else .error ⟨start, stop⟩

/-- A whole number of eight bits in hexadecimal digits, as many as there are, behind a plus sign or
without one. -/
def byteOfHex? (cs : List Char) : Option UInt8 := do
  let digits := match cs with
    | '+' :: rest => rest
    | cs => cs
  if digits.isEmpty then none
  let n ← digits.foldlM (fun n c => (hexDigit? c).map (16 * n + ·.toNat)) 0
  if n < 256 then some n.toUInt8 else none

/-- Reads the channel at a byte offset. -/
def channelAt (digits : String) (offset : Nat) : OptionT (Except BadSlice) UInt8 :=
  OptionT.mk ((slice digits ⟨offset⟩ ⟨offset + 2⟩).map fun pair => byteOfHex? pair.toList)

/-- Reads a color by the byte offsets of its channels, where the length in bytes and the characters
allow for it. -/
def ofHexSlices (text : String) : OptionT (Except BadSlice) Color :=
  match text.toList with
  | '#' :: rest =>
    let digits := String.ofList rest
    if (digits.utf8ByteSize = 6 ∨ digits.utf8ByteSize = 8) ∧ rest.all (·.toNat < 128) then do
      let red ← channelAt digits 0
      let green ← channelAt digits 2
      let blue ← channelAt digits 4
      let alpha ← if digits.utf8ByteSize = 8 then channelAt digits 6 else pure 255
      return ⟨red, green, blue, alpha⟩
    else failure
  | _ => failure

theorem byteOfHex?_pair (first second : Char) :
    byteOfHex? [first, second] = channel? first second := by
  have hsmall : ∀ {c digit}, hexDigit? c = some digit → digit.toNat < 16 := fun h =>
    (hexDigit?_eq_some_iff.mp h).lt
  by_cases hplus : first = '+'
  · subst hplus
    cases hsecond : hexDigit? second with
    | none => simp [byteOfHex?, channel?, hsecond]
    | some low =>
        have := hsmall hsecond
        simp [byteOfHex?, channel?, hsecond]
        omega
  · cases hfirst : hexDigit? first with
    | none => simp [byteOfHex?, channel?, hfirst, hplus]
    | some high =>
        cases hsecond : hexDigit? second with
        | none => simp [byteOfHex?, channel?, hfirst, hsecond, hplus]
        | some low =>
            have := hsmall hfirst
            have := hsmall hsecond
            simp [byteOfHex?, channel?, hfirst, hsecond, hplus]
            omega

/-- Of characters of ASCII there are as many as bytes. -/
theorem utf8Len_ascii {cs : List Char} (h : ∀ c ∈ cs, c.toNat < 128) :
    String.utf8Len cs = cs.length := by
  induction cs with
  | nil => rfl
  | cons c rest ih =>
      obtain ⟨hc, hrest⟩ := List.forall_mem_cons.mp h
      have hsize : c.utf8Size = 1 := by
        have hle : c.val ≤ 0x7f := UInt32.le_iff_toNat_le.mpr (Nat.le_of_lt_succ hc)
        simp [Char.utf8Size, hle]
      rw [String.utf8Len_cons, ih hrest, hsize, List.length_cons]

theorem isValid_length (front back : List Char) :
    String.Pos.Raw.isValid (String.ofList (front ++ back)) ⟨String.utf8Len front⟩ := by
  rw [String.Pos.Raw.isValid_eq_true_iff, String.Pos.Raw.isValid_iff_exists_append]
  refine ⟨String.ofList front, String.ofList back, String.ofList_append, ?_⟩
  exact (String.rawEndPos_ofList front).symm

/-- Where the characters before a channel take a byte each, its offset cuts it out. -/
theorem channelAt_eq (front : List Char) {back : List Char} {first second : Char}
    (h : ∀ c ∈ front ++ first :: second :: back, c.toNat < 128) :
    channelAt (String.ofList (front ++ first :: second :: back)) front.length =
      OptionT.mk (pure (channel? first second)) := by
  have hsplit : front ++ first :: second :: back = front ++ [first, second] ++ back := by simp
  have hfront : String.utf8Len front = front.length :=
    utf8Len_ascii fun c hc => h c (List.mem_append_left _ hc)
  have hpair : String.utf8Len [first, second] = 2 := utf8Len_ascii fun c hc => by
    refine h c ?_
    rw [hsplit]
    exact List.mem_append_left _ (List.mem_append_right _ hc)
  have hstart : String.Pos.Raw.isValid (String.ofList (front ++ first :: second :: back))
      ⟨front.length⟩ := hfront ▸ isValid_length front _
  have hstop : String.Pos.Raw.isValid (String.ofList (front ++ first :: second :: back))
      ⟨front.length + 2⟩ := by
    have := isValid_length (front ++ [first, second]) back
    rwa [String.utf8Len_append, hfront, hpair, ← hsplit] at this
  have hcut : String.Pos.Raw.extract (String.ofList (front ++ first :: second :: back))
      ⟨front.length⟩ ⟨front.length + 2⟩ = String.ofList [first, second] := by
    have := String.extract_of_valid front [first, second] back
    rwa [hfront, hpair, ← hsplit] at this
  have hslice : slice (String.ofList (front ++ first :: second :: back)) ⟨front.length⟩
      ⟨front.length + 2⟩ = .ok (String.ofList [first, second]) := by
    rw [slice, if_pos ⟨Nat.le_add_right _ 2, hstart, hstop⟩, hcut]
  rw [channelAt, hslice, Except.map, String.toList_ofList, byteOfHex?_pair]
  rfl

theorem ascii_of_isDigit {c : Char} {n : Nat} (h : IsDigit c n) : c.toNat < 128 :=
  ascii_of_hexDigit? (hexDigit?_of_isDigit h)

theorem IsChannel.ascii {first second : Char} {channel : UInt8}
    (h : IsChannel first second channel) : first.toNat < 128 ∧ second.toNat < 128 := by
  rcases h with ⟨high, low, hhigh, hlow, -⟩ | ⟨rfl, hlow⟩
  · exact ⟨ascii_of_isDigit hhigh, ascii_of_isDigit hlow⟩
  · exact ⟨by decide, ascii_of_isDigit hlow⟩

/-- What spells a color passes the tests of length and characters. -/
theorem Spells.ascii {cs : List Char} {color : Color} (h : Spells IsChannel cs color) :
    ∃ rest, cs = '#' :: rest ∧ (rest.length = 6 ∨ rest.length = 8) ∧ ∀ c ∈ rest, c.toNat < 128 := by
  cases h with
  | solid hred hgreen hblue =>
      exact ⟨_, rfl, .inl rfl, by simp [hred.ascii, hgreen.ascii, hblue.ascii]⟩
  | withAlpha hred hgreen hblue halpha =>
      exact ⟨_, rfl, .inr rfl, by simp [hred.ascii, hgreen.ascii, hblue.ascii, halpha.ascii]⟩

theorem ofHex?_eq_none {text : String} (h : ∀ color, ¬Spells IsChannel text.toList color) :
    ofHex? text = none :=
  Option.eq_none_iff_forall_ne_some.mpr fun color hcolor => h color (ofHex?_eq_some_iff.mp hcolor)

theorem channelAt_colors {r r' g g' b b' : Char} {back : List Char}
    (hascii : ∀ c ∈ r :: r' :: g :: g' :: b :: b' :: back, c.toNat < 128) :
    channelAt (String.ofList (r :: r' :: g :: g' :: b :: b' :: back)) 0 =
        OptionT.mk (pure (channel? r r')) ∧
      channelAt (String.ofList (r :: r' :: g :: g' :: b :: b' :: back)) 2 =
        OptionT.mk (pure (channel? g g')) ∧
      channelAt (String.ofList (r :: r' :: g :: g' :: b :: b' :: back)) 4 =
        OptionT.mk (pure (channel? b b')) :=
  ⟨channelAt_eq [] hascii, channelAt_eq [r, r'] hascii, channelAt_eq [r, r', g, g'] hascii⟩

theorem ofHexSlices_six {text : String} {r r' g g' b b' : Char}
    (hlist : text.toList = ['#', r, r', g, g', b, b'])
    (hascii : ∀ c ∈ [r, r', g, g', b, b'], c.toNat < 128) :
    (ofHexSlices text).run = .ok (ofHex? text) := by
  have hlength : (String.ofList [r, r', g, g', b, b']).utf8ByteSize = 6 := by
    rw [String.utf8ByteSize_ofList, utf8Len_ascii hascii]
    rfl
  obtain ⟨hred, hgreen, hblue⟩ := channelAt_colors hascii
  simp only [ofHexSlices, ofHex?, hlist]
  rw [if_pos ⟨.inl hlength, by simpa using hascii⟩, hred, hgreen, hblue, hlength]
  cases channel? r r' <;> cases channel? g g' <;> cases channel? b b' <;> rfl

theorem ofHexSlices_eight {text : String} {r r' g g' b b' a a' : Char}
    (hlist : text.toList = ['#', r, r', g, g', b, b', a, a'])
    (hascii : ∀ c ∈ [r, r', g, g', b, b', a, a'], c.toNat < 128) :
    (ofHexSlices text).run = .ok (ofHex? text) := by
  have hlength : (String.ofList [r, r', g, g', b, b', a, a']).utf8ByteSize = 8 := by
    rw [String.utf8ByteSize_ofList, utf8Len_ascii hascii]
    rfl
  obtain ⟨hred, hgreen, hblue⟩ := channelAt_colors hascii
  have halpha : channelAt (String.ofList [r, r', g, g', b, b', a, a']) 6 =
      OptionT.mk (pure (channel? a a')) := channelAt_eq [r, r', g, g', b, b'] hascii
  simp only [ofHexSlices, ofHex?, hlist]
  rw [if_pos ⟨.inr hlength, by simpa using hascii⟩, hred, hgreen, hblue]
  simp only [hlength, if_true, halpha]
  cases channel? r r' <;> cases channel? g g' <;> cases channel? b b' <;>
    cases channel? a a' <;> rfl

/-- Reading by byte offsets always cuts out parts of the text, and comes to the same. -/
theorem ofHexSlices_eq (text : String) : (ofHexSlices text).run = .ok (ofHex? text) := by
  by_cases hpasses : ∃ rest, text.toList = '#' :: rest ∧ (rest.length = 6 ∨ rest.length = 8) ∧
      ∀ c ∈ rest, c.toNat < 128
  · obtain ⟨rest, hlist, hsix | height, hascii⟩ := hpasses
    · match rest, hsix with
      | [r, r', g, g', b, b'], _ => exact ofHexSlices_six hlist hascii
    · match rest, height with
      | [r, r', g, g', b, b', a, a'], _ => exact ofHexSlices_eight hlist hascii
  · rw [ofHex?_eq_none fun color hspells => hpasses hspells.ascii]
    unfold ofHexSlices
    split
    · rename_i rest hlist
      refine congrArg OptionT.run (if_neg fun ⟨hsize, hall⟩ => hpasses ⟨rest, hlist, ?_, ?_⟩)
      · rw [String.utf8ByteSize_ofList, utf8Len_ascii (by simpa using hall)] at hsize
        exact hsize
      · simpa using hall
    · rfl

/-! ## Plus signs -/

theorem IsPair.no_plus {first second : Char} {channel : UInt8} (h : IsPair first second channel) :
    first ≠ '+' ∧ second ≠ '+' := by
  obtain ⟨high, low, hhigh, hlow, -⟩ := h
  exact ⟨fun hfirst => not_isDigit_plus high (hfirst ▸ hhigh),
    fun hsecond => not_isDigit_plus low (hsecond ▸ hlow)⟩

theorem IsChannel.isPair {first second : Char} {channel : UInt8}
    (h : IsChannel first second channel) (hplus : first ≠ '+') : IsPair first second channel :=
  h.resolve_right fun hsigned => hplus hsigned.1

/-- Without a plus sign there are pairs of digits only. -/
theorem spells_isPair_iff {cs : List Char} {color : Color} :
    Spells IsPair cs color ↔ Spells IsChannel cs color ∧ '+' ∉ cs := by
  constructor
  · intro h
    cases h with
    | solid hred hgreen hblue =>
        refine ⟨.solid (.inl hred) (.inl hgreen) (.inl hblue), ?_⟩
        simp [hred.no_plus.1.symm, hred.no_plus.2.symm, hgreen.no_plus.1.symm,
          hgreen.no_plus.2.symm, hblue.no_plus.1.symm, hblue.no_plus.2.symm]
    | withAlpha hred hgreen hblue halpha =>
        refine ⟨.withAlpha (.inl hred) (.inl hgreen) (.inl hblue) (.inl halpha), ?_⟩
        simp [hred.no_plus.1.symm, hred.no_plus.2.symm, hgreen.no_plus.1.symm,
          hgreen.no_plus.2.symm, hblue.no_plus.1.symm, hblue.no_plus.2.symm,
          halpha.no_plus.1.symm, halpha.no_plus.2.symm]
  · rintro ⟨h, hplus⟩
    have hne {c : Char} (hc : c ∈ cs) : c ≠ '+' := fun heq => hplus (heq ▸ hc)
    cases h with
    | solid hred hgreen hblue =>
        exact .solid (hred.isPair (hne (by simp))) (hgreen.isPair (hne (by simp)))
          (hblue.isPair (hne (by simp)))
    | withAlpha hred hgreen hblue halpha =>
        exact .withAlpha (hred.isPair (hne (by simp))) (hgreen.isPair (hne (by simp)))
          (hblue.isPair (hne (by simp))) (halpha.isPair (hne (by simp)))

end Color

namespace Palette

theorem readColor_eq_ok_iff {key value : String} {color : Color} :
    readColor key value = .ok color ↔ Color.ofHex? value = some color := by
  unfold readColor
  cases Color.ofHex? value <;> simp

theorem readColor_eq_error_iff {key value : String} {error : InvalidColor} :
    readColor key value = .error error ↔ error = ⟨key, value⟩ ∧ Color.ofHex? value = none := by
  unfold readColor
  cases Color.ofHex? value <;> simp [eq_comm]

/-- A text is read as a color if it is a number sign and three or four channels of two digits, or of
a plus sign and a digit; otherwise the error names the key and the text. No slice on the way goes
wrong. The texts that are read in spite of the notation are those with plus signs. -/
theorem readColor_exact (key value : String) :
    (Color.ofHexSlices value).run = .ok (Color.ofHex? value) ∧
    (∀ color, readColor key value = .ok color ↔ Color.Spells Color.IsChannel value.toList color) ∧
    (∀ error, readColor key value = .error error ↔
      error = ⟨key, value⟩ ∧ ∀ color, ¬Color.Spells Color.IsChannel value.toList color) ∧
    ∀ color, Color.Spells Color.IsPair value.toList color ↔
      readColor key value = .ok color ∧ '+' ∉ value.toList := by
  refine ⟨Color.ofHexSlices_eq value, fun color => ?_, fun error => ?_, fun color => ?_⟩
  · rw [readColor_eq_ok_iff, Color.ofHex?_eq_some_iff]
  · rw [readColor_eq_error_iff, Option.eq_none_iff_forall_ne_some]
    simp only [ne_eq, Color.ofHex?_eq_some_iff]
  · rw [readColor_eq_ok_iff, Color.ofHex?_eq_some_iff, Color.spells_isPair_iff]

/-- A plus sign is no hexadecimal digit, but it is read as one. -/
theorem readColor_plus_sign :
    readColor "k" "#+f8000" = .ok ⟨15, 128, 0, 255⟩ ∧
      ¬∃ color, Color.Spells Color.IsPair "#+f8000".toList color := by
  refine ⟨by decide +kernel, fun ⟨color, hspells⟩ => ?_⟩
  exact (Color.spells_isPair_iff.mp hspells).2 (by decide +kernel)

end Palette

end WidgetToolkit
