import Mathlib.Data.List.Induction
import WidgetToolkit.Proofs.Paint.Coverage

/-! # Calls in effect

A restore pops the last save that is still open. A translation or a clip is in effect until a
restore pops a save made before it. The scope of a recorder is that of the calls in effect. -/

namespace WidgetToolkit

variable {K : Type}

/-! ## Saves and their restores -/

namespace PaintCall

def isSave : PaintCall K → Bool
  | .save => true
  | _ => false

def isRestore : PaintCall K → Bool
  | .restore => true
  | _ => false

/-- Whether a call changes what the next ones do until a restore. -/
def scopes : PaintCall K → Bool
  | .translate _ | .clip _ => true
  | _ => false

def weight : PaintCall K → Int
  | .save => 1
  | .restore => -1
  | _ => 0

end PaintCall

namespace Recorder

variable {calls : List (PaintCall K)} {call : PaintCall K} {start stop index : Nat}

/-- Saves less restores among the first calls. -/
def level (calls : List (PaintCall K)) (n : Nat) : Int :=
  ((calls.take n).map PaintCall.weight).sum

/-- A restore pops a save if there are as many restores as saves between them, and never more on the
way. -/
def Pops (calls : List (PaintCall K)) (start stop : Nat) : Prop :=
  start < stop ∧ calls[start]?.any PaintCall.isSave ∧ calls[stop]?.any PaintCall.isRestore ∧
    level calls stop = level calls (start + 1) ∧
    ∀ n ≤ stop, start < n → level calls (start + 1) ≤ level calls n

instance (calls : List (PaintCall K)) (start stop : Nat) : Decidable (Pops calls start stop) :=
  inferInstanceAs (Decidable (_ ∧ _))

/-- No later restore has popped a save made before a call. -/
def InEffect (calls : List (PaintCall K)) (index : Nat) : Prop :=
  ∀ stop < calls.length, index < stop → ∀ start < index, ¬Pops calls start stop

instance (calls : List (PaintCall K)) (index : Nat) : Decidable (InEffect calls index) :=
  inferInstanceAs (Decidable (∀ _ < _, _))

/-- The translations and clips in effect, with their places among the calls. -/
def inEffect (calls : List (PaintCall K)) : List (PaintCall K × Nat) :=
  calls.zipIdx.filter fun (call, index) => call.scopes && InEffect calls index

/-! ### Levels -/

theorem level_succ (h : calls[index]? = some call) :
    level calls (index + 1) = level calls index + call.weight := by
  rw [level, List.take_add_one, h, Option.toList_some, List.map_append, List.sum_append]
  simp [level]

theorem level_append {n : Nat} (h : n ≤ calls.length) (further : List (PaintCall K)) :
    level (calls ++ further) n = level calls n := by
  rw [level, List.take_append_of_le_length h, level]

theorem PaintCall.eq_save_of_any {found : Option (PaintCall K)} (h : found.any PaintCall.isSave) :
    found = some .save := by
  cases found with
  | none => cases h
  | some call => cases call <;> first | rfl | cases h

theorem PaintCall.eq_restore_of_any {found : Option (PaintCall K)}
    (h : found.any PaintCall.isRestore) : found = some .restore := by
  cases found with
  | none => cases h
  | some call => cases call <;> first | rfl | cases h

theorem Pops.level_save (h : Pops calls start stop) :
    level calls (start + 1) = level calls start + 1 :=
  level_succ (PaintCall.eq_save_of_any h.2.1)

theorem Pops.level_restore (h : Pops calls start stop) :
    level calls (stop + 1) = level calls stop - 1 :=
  level_succ (PaintCall.eq_restore_of_any h.2.2.1)

theorem Pops.lt_length (h : Pops calls start stop) : stop < calls.length :=
  (List.getElem?_eq_some_iff.mp (PaintCall.eq_restore_of_any h.2.2.1)).1

/-- Saves and the restores that pop them do not overlap. -/
theorem Pops.not_overlapping {start' stop' : Nat} (h : Pops calls start stop)
    (h' : Pops calls start' stop') (hstart : start' < start) (hinside : start < stop') :
    stop < stop' := by
  by_contra hstop
  have hsave := h.level_save
  have hrestore := h'.level_restore
  obtain ⟨hlt, -, -, hlevel, habove⟩ := h
  obtain ⟨hlt', -, -, hlevel', habove'⟩ := h'
  have houter := habove' start hinside.le hstart
  have hinner := habove stop' (Nat.le_of_not_lt hstop) hinside
  rcases (Nat.le_of_not_lt hstop).eq_or_lt with rfl | hbefore
  · omega
  · have hbehind := habove (stop' + 1) hbefore (Nat.lt_succ_of_lt hinside)
    omega

/-- A restore pops one save at most. -/
theorem Pops.start_unique {start' : Nat} (h : Pops calls start stop) (h' : Pops calls start' stop) :
    start' = start := by
  rcases Nat.lt_trichotomy start' start with hbefore | heq | hbefore
  · exact absurd (h.not_overlapping h' hbefore h.1) (Nat.lt_irrefl stop)
  · exact heq
  · exact absurd (h'.not_overlapping h hbefore h'.1) (Nat.lt_irrefl stop)

/-! ### Further calls -/

theorem pops_append_iff (further : List (PaintCall K)) (hstop : stop < calls.length) :
    Pops (calls ++ further) start stop ↔ Pops calls start stop := by
  unfold Pops
  by_cases hlt : start < stop
  · have hstart : start < calls.length := hlt.trans hstop
    rw [List.getElem?_append_left hstart, List.getElem?_append_left hstop,
      level_append hstop.le, level_append hstart]
    refine and_congr_right' (and_congr_right' (and_congr_right' (and_congr_right' ?_)))
    exact forall₂_congr fun n hn => by rw [level_append (hn.trans hstop.le)]
  · simp [hlt]

theorem inEffect_append_singleton_iff (call : PaintCall K) (hindex : index < calls.length) :
    InEffect (calls ++ [call]) index ↔
      InEffect calls index ∧ ∀ start < index, ¬Pops (calls ++ [call]) start calls.length := by
  unfold InEffect
  rw [List.length_append, List.length_singleton, Nat.forall_lt_succ_right]
  refine and_congr ?_ (imp_iff_right hindex)
  refine forall₂_congr fun stop hstop => forall_congr' fun _ => forall₂_congr fun start _ => ?_
  rw [pops_append_iff [call] hstop]

theorem inEffect_last (call : PaintCall K) : InEffect (calls ++ [call]) calls.length := by
  intro stop hstop hbehind
  rw [List.length_append, List.length_singleton] at hstop
  omega

/-- A call that pops no save comes to those in effect, if it is one that scopes. -/
theorem inEffect_append (hpops : ∀ start, ¬Pops (calls ++ [call]) start calls.length) :
    inEffect (calls ++ [call]) =
      inEffect calls ++ if call.scopes then [(call, calls.length)] else [] := by
  unfold inEffect
  rw [List.zipIdx_append, List.filter_append]
  congr 1
  · refine List.filter_congr fun (found, index) hfound => ?_
    have hindex : index < calls.length := List.snd_lt_of_mem_zipIdx hfound
    simp [inEffect_append_singleton_iff call hindex, hpops]
  · simp [inEffect_last, List.filter_cons]

/-- What was in effect at a save is in effect again when the save is popped. -/
theorem inEffect_take_iff (hpops : Pops (calls ++ [call]) start calls.length)
    (hindex : index < start) :
    InEffect (calls ++ [call]) index ↔ InEffect (calls.take start) index := by
  have hstart : start < calls.length := hpops.1
  have hlength : (calls.take start).length = start := List.length_take_of_le hstart.le
  have hearlier {stop k : Nat} (hstop : stop < start) :
      Pops (calls ++ [call]) k stop ↔ Pops (calls.take start) k stop := by
    have hsplit : calls ++ [call] = calls.take start ++ (calls.drop start ++ [call]) := by
      rw [← List.append_assoc, List.take_append_drop]
    rw [hsplit]
    exact pops_append_iff _ (hstop.trans_eq hlength.symm)
  constructor
  · intro heffect stop hstop hbehind k hk hpop
    rw [hlength] at hstop
    refine heffect stop ?_ hbehind k hk ((hearlier hstop).mpr hpop)
    rw [List.length_append]
    omega
  · intro heffect stop hstop hbehind k hk hpop
    rcases Nat.lt_trichotomy stop start with hbefore | rfl | hafter
    · exact heffect stop (hlength.symm ▸ hbefore) hbehind k hk ((hearlier hbefore).mp hpop)
    · have hsave := PaintCall.eq_save_of_any hpops.2.1
      have hrestore := PaintCall.eq_restore_of_any hpop.2.2.1
      rw [hsave] at hrestore
      cases hrestore
    · have := hpops.not_overlapping hpop (hk.trans hindex) hafter
      rw [List.length_append, List.length_singleton] at hstop
      omega

/-- What a restore takes out of effect. -/
theorem not_inEffect_of_pops (hpops : Pops calls start stop) (hbehind : start < index)
    (hbefore : index < stop) : ¬InEffect calls index := fun heffect =>
  heffect stop hpops.lt_length hbefore start hbehind hpops

/-- After a restore those calls are in effect that were in effect at its save. -/
theorem inEffect_restore (hpops : Pops (calls ++ [call]) start calls.length) :
    inEffect (calls ++ [call]) = inEffect (calls.take start) := by
  have hstart : start < calls.length := hpops.1
  have hlength : (calls.take start).length = start := List.length_take_of_le hstart.le
  have hsplit : calls ++ [call] = calls.take start ++ (calls ++ [call]).drop start := by
    rw [List.drop_append_of_le_length hstart.le, ← List.append_assoc, List.take_append_drop]
  have hkept : (calls.take start).zipIdx.filter
      (fun (found, index) => found.scopes && InEffect (calls ++ [call]) index) =
        inEffect (calls.take start) := by
    refine List.filter_congr fun (found, index) hfound => ?_
    have hindex : index < start := (List.snd_lt_of_mem_zipIdx hfound).trans_eq hlength
    simp [inEffect_take_iff hpops hindex]
  have hgone : (((calls ++ [call]).drop start).zipIdx (0 + (calls.take start).length)).filter
      (fun (found, index) => found.scopes && InEffect (calls ++ [call]) index) = [] := by
    refine List.filter_eq_nil_iff.mpr fun (found, index) hfound => ?_
    rw [Nat.zero_add, hlength, List.mk_mem_zipIdx_iff_le_and_getElem?_sub,
      List.getElem?_drop] at hfound
    obtain ⟨hle, hget⟩ := hfound
    rw [Nat.add_sub_cancel' hle] at hget
    have hindex : index ≤ calls.length := by
      simpa [Nat.lt_succ_iff] using (List.getElem?_eq_some_iff.mp hget).1
    rcases hle.eq_or_lt with rfl | hbehind
    · obtain rfl := Option.some.inj (hget.symm.trans (PaintCall.eq_save_of_any hpops.2.1))
      simp [PaintCall.scopes]
    · rcases hindex.eq_or_lt with rfl | hbefore
      · obtain rfl := Option.some.inj (hget.symm.trans (PaintCall.eq_restore_of_any hpops.2.2.1))
        simp [PaintCall.scopes]
      · simp [not_inEffect_of_pops hpops hbehind hbefore]
  calc inEffect (calls ++ [call])
      = (calls.take start ++ (calls ++ [call]).drop start).zipIdx.filter
          (fun (found, index) => found.scopes && InEffect (calls ++ [call]) index) := by
        rw [← hsplit]
        rfl
    _ = inEffect (calls.take start) := by
        rw [List.zipIdx_append, List.filter_append, hkept, hgone, List.append_nil]

theorem index_lt_of_mem_inEffect {entry : PaintCall K × Nat} (h : entry ∈ inEffect calls) :
    entry.2 < calls.length :=
  List.snd_lt_of_mem_zipIdx (List.mem_of_mem_filter h)

end Recorder

/-! ## What is in effect -/

variable [Coord K]

namespace PaintCall

def offset? : PaintCall K → Option (Offset K)
  | .translate offset => some offset
  | _ => none

/-- The rectangle to which a call restricts drawing, from an origin. -/
def clipAt? (origin : Offset K) : PaintCall K → Option (Rect K)
  | .clip rect => some (rect + origin)
  | _ => none

/-- The command that a call draws, from an origin. -/
def commandAt? (palette : Palette) (origin : Offset K) : PaintCall K → Option (DrawCommand K)
  | .fill rect color => some (.fill (rect + origin) color)
  | .theme part state rect =>
    some (.themed part state (rect + origin) (palette.partStyle part state))
  | .text words rect style => some (.text words (rect + origin) style)
  | _ => none

end PaintCall

namespace Recorder

variable {calls : List (PaintCall K)} {call : PaintCall K} {start : Nat} {palette : Palette}

/-- The sum of the translations in effect. -/
def shift (calls : List (PaintCall K)) : Offset K :=
  ((inEffect calls).filterMap fun entry => entry.1.offset?).foldl (· + ·) .zero

/-- The clips in effect, each from the origin at the time it was set. -/
def clips (calls : List (PaintCall K)) : List (Rect K) :=
  (inEffect calls).filterMap fun entry => entry.1.clipAt? (shift (calls.take entry.2))

/-- The commands that calls draw, each from the origin at the time of its call. -/
def drawn (palette : Palette) (calls : List (PaintCall K)) : List (DrawCommand K) :=
  calls.zipIdx.filterMap fun entry => entry.1.commandAt? palette (shift (calls.take entry.2))

/-- The common part of rectangles, if there are any. -/
def common (rects : List (Rect K)) : Option (Rect K) :=
  rects.foldl (fun clip rect => some (clip.elim rect (·.intersect rect))) none

theorem shift_append (hpops : ∀ start, ¬Pops (calls ++ [call]) start calls.length) :
    shift (calls ++ [call]) = call.offset?.elim (shift calls) (shift calls + ·) := by
  rw [shift, inEffect_append hpops, List.filterMap_append, List.foldl_append, ← shift]
  cases call <;> rfl

theorem shift_restore (hpops : Pops (calls ++ [call]) start calls.length) :
    shift (calls ++ [call]) = shift (calls.take start) := by
  rw [shift, inEffect_restore hpops, shift]

theorem clips_append (hpops : ∀ start, ¬Pops (calls ++ [call]) start calls.length) :
    clips (calls ++ [call]) = clips calls ++ (call.clipAt? (shift calls)).toList := by
  rw [clips, inEffect_append hpops, List.filterMap_append]
  congr 1
  · refine List.filterMap_congr fun entry hentry => ?_
    rw [List.take_append_of_le_length (index_lt_of_mem_inEffect hentry).le]
  · cases call <;> simp [PaintCall.scopes, PaintCall.clipAt?]

theorem clips_restore (hpops : Pops (calls ++ [call]) start calls.length) :
    clips (calls ++ [call]) = clips (calls.take start) := by
  have hstart : start < calls.length := hpops.1
  rw [clips, inEffect_restore hpops, clips]
  refine List.filterMap_congr fun entry hentry => ?_
  have hindex := index_lt_of_mem_inEffect hentry
  rw [List.length_take_of_le hstart.le] at hindex
  rw [List.take_take, min_eq_left hindex.le,
    List.take_append_of_le_length (hindex.trans hstart).le]

theorem drawn_append (palette : Palette) (calls : List (PaintCall K)) (call : PaintCall K) :
    drawn palette (calls ++ [call]) =
      drawn palette calls ++ (call.commandAt? palette (shift calls)).toList := by
  rw [drawn, List.zipIdx_append, List.filterMap_append]
  congr 1
  · refine List.filterMap_congr fun entry hentry => ?_
    rw [List.take_append_of_le_length (List.snd_lt_of_mem_zipIdx hentry).le]
  · cases call <;> simp [PaintCall.commandAt?]

/-! ## The saved scopes -/

/-- A recorder that has made calls. -/
abbrev after (palette : Palette) (calls : List (PaintCall K)) : Recorder K :=
  (Recorder.new palette).run calls

theorem after_append (calls : List (PaintCall K)) (call : PaintCall K) :
    after palette (calls ++ [call]) = (after palette calls).apply call := by
  rw [after, run_append]
  rfl

/-- A call saves what it weighs, but for a restore where nothing is saved. -/
theorem length_saved_apply (recorder : Recorder K) (call : PaintCall K) :
    recorder.saved.length + call.weight ≤ (recorder.apply call).saved.length := by
  cases call with
  | restore => cases hsaved : recorder.saved <;> simp [apply, hsaved, PaintCall.weight]
  | _ => simp [apply, record, PaintCall.weight]

theorem length_saved_run (recorder : Recorder K) (calls : List (PaintCall K)) :
    recorder.saved.length + (calls.map PaintCall.weight).sum ≤
      (recorder.run calls).saved.length := by
  induction calls generalizing recorder with
  | nil => simp
  | cons call rest ih =>
      have hcall := recorder.length_saved_apply call
      have hrest : _ ≤ ((recorder.run (call :: rest)).saved.length : Int) :=
        ih (recorder.apply call)
      rw [List.map_cons, List.sum_cons]
      omega

/-- A save is still open, so many others being open behind it. -/
structure IsOpen (calls : List (PaintCall K)) (start depth : Nat) : Prop where
  save : calls[start]?.any PaintCall.isSave
  level_eq : level calls calls.length = level calls (start + 1) + depth
  level_le : ∀ n ≤ calls.length, start < n → level calls (start + 1) ≤ level calls n

omit [Coord K] in
theorem IsOpen.lt_length {depth : Nat} (h : IsOpen calls start depth) : start < calls.length :=
  (List.getElem?_eq_some_iff.mp (PaintCall.eq_save_of_any h.save)).1

omit [Coord K] in
theorem level_length_succ (calls : List (PaintCall K)) (call : PaintCall K) :
    level (calls ++ [call]) (calls.length + 1) = level calls calls.length + call.weight := by
  rw [level_succ List.getElem?_concat_length, level_append le_rfl]

omit [Coord K] in
theorem isOpen_save (calls : List (PaintCall K)) : IsOpen (calls ++ [.save]) calls.length 0 where
  save := by simp [PaintCall.isSave]
  level_eq := by simp
  level_le n hn hbehind := by
    rw [List.length_append, List.length_singleton] at hn
    rw [show n = calls.length + 1 by omega]

omit [Coord K] in
theorem IsOpen.append {depth depth' : Nat} (h : IsOpen calls start depth)
    (hdepth : (depth' : Int) = depth + call.weight) : IsOpen (calls ++ [call]) start depth' := by
  have hstart := h.lt_length
  have hsaved : level (calls ++ [call]) (start + 1) = level calls (start + 1) :=
    level_append hstart [call]
  have hlast := level_length_succ calls call
  have hlevel := h.level_eq
  refine ⟨?_, ?_, fun n hn hbehind => ?_⟩
  · rw [List.getElem?_append_left hstart]
    exact h.save
  · rw [List.length_append, List.length_singleton]
    omega
  · rw [List.length_append, List.length_singleton] at hn
    rcases hn.eq_or_lt with rfl | hn
    · omega
    · have := h.level_le n (Nat.le_of_lt_succ hn) hbehind
      rw [level_append (Nat.le_of_lt_succ hn)]
      omega

omit [Coord K] in
/-- The next restore pops the last save that is open. -/
theorem IsOpen.pops (h : IsOpen calls start 0) :
    Pops (calls ++ [.restore]) start calls.length := by
  have hstart := h.lt_length
  have hsaved : level (calls ++ [.restore]) (start + 1) = level calls (start + 1) :=
    level_append hstart _
  refine ⟨hstart, ?_, ?_, ?_, fun n hn hbehind => ?_⟩
  · rw [List.getElem?_append_left hstart]
    exact h.save
  · simp [PaintCall.isRestore]
  · rw [hsaved, level_append le_rfl, h.level_eq, Nat.cast_zero, add_zero]
  · rw [hsaved, level_append hn]
    exact h.level_le n hn hbehind

/-- What is saved are the scopes at the saves that are open. -/
theorem exists_isOpen (palette : Palette) (calls : List (PaintCall K)) {depth : Nat}
    (hdepth : depth < (after palette calls).saved.length) :
    ∃ start, IsOpen calls start depth ∧
      (after palette calls).saved.drop depth =
        (after palette (calls.take start)).scope :: (after palette (calls.take start)).saved := by
  induction calls using List.reverseRecOn generalizing depth with
  | nil => cases hdepth
  | append_singleton calls call ih =>
      -- A call that leaves a scope saved leaves its save open.
      have hkeep {inner : Nat} (hinner : inner < (after palette calls).saved.length)
          (hweight : (depth : Int) = inner + call.weight)
          (hsaved : (after palette (calls ++ [call])).saved.drop depth =
            (after palette calls).saved.drop inner) :
          ∃ start, IsOpen (calls ++ [call]) start depth ∧
            (after palette (calls ++ [call])).saved.drop depth =
              (after palette ((calls ++ [call]).take start)).scope ::
                (after palette ((calls ++ [call]).take start)).saved := by
        obtain ⟨start, hopen, hdrop⟩ := ih hinner
        refine ⟨start, hopen.append hweight, ?_⟩
        rw [hsaved, hdrop, List.take_append_of_le_length hopen.lt_length.le]
      rw [after_append] at hdepth hkeep ⊢
      cases call with
      | save =>
          cases depth with
          | zero =>
              refine ⟨calls.length, isOpen_save calls, ?_⟩
              rw [List.take_append_of_le_length le_rfl, List.take_length]
              rfl
          | succ depth =>
              exact hkeep (Nat.lt_of_succ_lt_succ hdepth) (by simp [PaintCall.weight]) rfl
      | restore =>
          cases hsaved : (after palette calls).saved with
          | nil =>
              rw [apply, hsaved] at hdepth
              simp at hdepth
          | cons scope rest =>
              simp only [apply, hsaved] at hdepth hkeep ⊢
              exact hkeep (Nat.succ_lt_succ hdepth) (by simp [PaintCall.weight]) rfl
      | _ => exact hkeep hdepth (by simp [PaintCall.weight]) rfl

/-- Where a restore pops a save, a scope is saved. -/
theorem Pops.saved_ne_nil (h : Pops (calls ++ [call]) start calls.length) (palette : Palette) :
    (after palette calls).saved ≠ [] := by
  intro hnil
  have hstart : start < calls.length := h.1
  have hsave : calls[start]? = some .save := by
    rw [← List.getElem?_append_left hstart]
    exact PaintCall.eq_save_of_any h.2.1
  have hlevel : level calls calls.length = level calls (start + 1) := by
    rw [← level_append le_rfl [call], h.2.2.2.1, level_append hstart]
  have hopened : calls.take (start + 1) = calls.take start ++ [.save] := by
    rw [List.take_add_one, hsave]
    rfl
  have hbehind : ((calls.drop (start + 1)).map PaintCall.weight).sum = 0 := by
    have hall : level calls calls.length =
        level calls (start + 1) + ((calls.drop (start + 1)).map PaintCall.weight).sum := by
      rw [level, level, List.take_length, ← List.sum_append, ← List.map_append,
        List.take_append_drop]
    omega
  have hrun := length_saved_run (after palette (calls.take (start + 1))) (calls.drop (start + 1))
  rw [← run_append, List.take_append_drop, hnil, hbehind, hopened, after_append] at hrun
  simp [apply] at hrun
  omega

/-- A restore goes back to the scope at the save that it pops. -/
theorem after_restore (h : Pops (calls ++ [.restore]) start calls.length) :
    (after palette (calls ++ [.restore])).scope = (after palette (calls.take start)).scope := by
  have hsaved := List.length_pos_of_ne_nil (h.saved_ne_nil palette)
  obtain ⟨start', hopen, hdrop⟩ := exists_isOpen palette calls hsaved
  obtain rfl := h.start_unique hopen.pops
  rw [List.drop_zero] at hdrop
  rw [after_append, apply, hdrop]

/-- A restore that pops no save finds no scope saved. -/
theorem saved_eq_nil (h : ∀ start, ¬Pops (calls ++ [.restore]) start calls.length) :
    (after palette calls).saved = [] := by
  by_contra hne
  obtain ⟨start, hopen, -⟩ := exists_isOpen palette calls (List.length_pos_of_ne_nil hne)
  exact h start hopen.pops

theorem apply_restore_of_nil {recorder : Recorder K} (h : recorder.saved = []) :
    recorder.apply .restore = { recorder with strayRestores := recorder.strayRestores + 1 } := by
  rw [apply, h]

/-! ## The scope -/

theorem common_append (rects : List (Rect K)) (rect : Rect K) :
    common (rects ++ [rect]) = some ((common rects).elim rect (·.intersect rect)) := by
  rw [common, List.foldl_append]
  rfl

/-- The scope is that of the calls in effect. -/
theorem after_scope (palette : Palette) (calls : List (PaintCall K)) :
    (after palette calls).scope = ⟨shift calls, common (clips calls)⟩ := by
  induction hlength : calls.length using Nat.strong_induction_on generalizing calls with
  | _ length ih =>
      subst hlength
      rcases List.eq_nil_or_concat' calls with rfl | ⟨calls, call, rfl⟩
      · rfl
      have hshorter {n : Nat} (hn : n ≤ calls.length) :
          (after palette (calls.take n)).scope =
            ⟨shift (calls.take n), common (clips (calls.take n))⟩ := by
        refine ih _ ?_ _ rfl
        rw [List.length_take_of_le hn, List.length_append, List.length_singleton]
        omega
      by_cases hpops : ∃ start, Pops (calls ++ [call]) start calls.length
      · obtain ⟨start, hpops⟩ := hpops
        rw [shift_restore hpops, clips_restore hpops, ← hshorter hpops.1.le]
        have hrestore := PaintCall.eq_restore_of_any hpops.2.2.1
        rw [List.getElem?_concat_length] at hrestore
        obtain rfl := Option.some.inj hrestore
        exact after_restore hpops
      · rw [not_exists] at hpops
        have hbefore := hshorter (le_refl calls.length)
        rw [List.take_length] at hbefore
        rw [after_append, shift_append hpops, clips_append hpops]
        cases call with
        | restore =>
            rw [apply, saved_eq_nil hpops]
            simpa [PaintCall.offset?, PaintCall.clipAt?] using hbefore
        | translate offset =>
            simp [apply, hbefore, PaintScope.translate, PaintCall.offset?, PaintCall.clipAt?]
        | clip rect =>
            simp only [apply, hbefore, PaintScope.restrict, PaintScope.absolute, PaintCall.offset?,
              PaintCall.clipAt?, Option.elim_none, Option.toList_some, common_append]
            cases common (clips calls) <;> rfl
        | _ => simpa [apply, record, PaintCall.offset?, PaintCall.clipAt?] using hbefore

theorem after_palette (palette : Palette) (calls : List (PaintCall K)) :
    (after palette calls).palette = palette := by
  induction calls using List.reverseRecOn with
  | nil => rfl
  | append_singleton calls call ih => rw [after_append, apply_palette, ih]

/-- What is recorded is drawn from the origins at the time. -/
theorem after_commands (palette : Palette) (calls : List (PaintCall K)) :
    (after palette calls).commands = drawn palette calls := by
  induction calls using List.reverseRecOn with
  | nil => rfl
  | append_singleton calls call ih =>
      rw [after_append, apply_commands, ih, drawn_append]
      congr 2
      cases call <;>
        simp [command?, PaintCall.commandAt?, PaintScope.absolute, after_scope, after_palette]

/-! ## Exact numbers -/

theorem common_eq_none_iff {rects : List (Rect K)} : common rects = none ↔ rects = [] := by
  rcases List.eq_nil_or_concat' rects with rfl | ⟨rects, rect, rfl⟩
  · simp [common]
  · simp [common_append]

/-- A point is in the common part if it is in every rectangle. -/
theorem contains_of_common {rects : List (Rect Rat)} {clip : Rect Rat}
    (h : common rects = some clip) (p : Point Rat) :
    clip.contains p ↔ ∀ rect ∈ rects, rect.contains p := by
  induction rects using List.reverseRecOn generalizing clip with
  | nil => cases h
  | append_singleton rects rect ih =>
      rw [common_append] at h
      obtain rfl := Option.some.inj h
      cases hcommon : common rects with
      | none => simp [common_eq_none_iff.mp hcommon]
      | some clip =>
          rw [Option.elim_some, Rect.contains_intersect, Bool.and_eq_true, ih hcommon]
          simp [or_imp, forall_and]

/-- After any calls the origin is the sum of the translations in effect, and drawing is restricted
to the common part of the clips in effect, if there are any. The commands are those that were drawn,
each from the origin at its time. A restore that pops no save changes nothing but the count of such
restores, and later calls leave the commands as they are. -/
theorem after_scoped (palette : Palette) (calls : List (PaintCall Rat)) :
    (after palette calls).scope.origin = shift calls ∧
    ((after palette calls).scope.clip = none ↔ clips calls = []) ∧
    (∀ clip, (after palette calls).scope.clip = some clip →
      ∀ p, clip.contains p ↔ ∀ rect ∈ clips calls, rect.contains p) ∧
    (after palette calls).commands = drawn palette calls ∧
    ((∀ start, ¬Pops (calls ++ [.restore]) start calls.length) →
      (after palette calls).apply .restore =
        { after palette calls with strayRestores := (after palette calls).strayRestores + 1 }) ∧
    ∀ further, (after palette calls).commands <+: (after palette (calls ++ further)).commands := by
  rw [after_scope]
  refine ⟨rfl, common_eq_none_iff, fun clip => contains_of_common, after_commands palette calls,
    fun hpops => ?_, fun further => ?_⟩
  · exact apply_restore_of_nil (saved_eq_nil hpops)
  · rw [show after palette (calls ++ further) = (after palette calls).run further from
      run_append _ calls further, run_commands (after palette calls)]
    exact List.prefix_append _ _

end Recorder

end WidgetToolkit
