/-
The caller among the frames of a trace.

The frames looked at are those from the first external one on, less the skip (`candidates`); the first eligible of
them is chosen, or the first of all when none is eligible (`chosen?`). Two things follow that a caller may not expect.
- `only_external_iff`: an internal frame is chosen exactly where the skip ends at one and no eligible frame comes
  after it.
- `skip_in_range_iff`: places are counted in 64 bits, so a skip that takes the sum past them leads back to a frame
  before the first external one, and a caller is found although the skip goes past the end of the trace.
`runtime_frame_reported` and `skip_leads_back` are short traces where this happens.
-/
import Mathlib.Tactic
import LogRelay.Event

namespace LogRelay.Trace

/-- a frame of neither the runtime nor the relay -/
def isExternal (f : Frame) : Bool := !isInternal f.symbol

def first? (frames : List Frame) : Option Nat := frames.findIdx? isExternal

/-- the frames that are looked at -/
def candidates (frames : List Frame) (skip : Nat) : List Frame :=
  match first? frames with
  | none => []
  | some first => frames.drop (start first skip)

/-- the frame that is taken for the caller: the first eligible one, or else the first -/
def chosen? (eventSkips configSkips : List String) (frames : List Frame) : Option Frame :=
  (frames.find? (isEligible eventSkips configSkips)).or frames.head?

variable {frames : List Frame} {es cs : List String}

theorem select_eq (frames : List Frame) (skip : Nat) (es cs : List String) :
    select frames skip es cs = (chosen? es cs (candidates frames skip)).map callerOf := by
  change ((first? frames).bind fun first => (frames.drop (start first skip)).head?.bind fun fallback =>
    some (callerOf (((frames.drop (start first skip)).find? (isEligible es cs)).getD fallback))) = _
  rw [candidates]
  cases first? frames with
  | none => rfl
  | some first =>
    simp only [Option.bind_some, chosen?]
    cases h : frames.drop (start first skip) with
    | nil => rfl
    | cons f fs => cases (f :: fs).find? (isEligible es cs) <;> rfl

theorem chosen?_eq_none_iff : chosen? es cs frames = none ↔ frames = [] := by
  rw [chosen?, Option.or_eq_none_iff, List.head?_eq_none_iff]
  constructor
  · exact And.right
  · rintro rfl
    exact ⟨rfl, rfl⟩

/-- a caller is reported exactly where frames are left -/
theorem select_eq_none_iff {skip : Nat} : select frames skip es cs = none ↔ candidates frames skip = [] := by
  rw [select_eq, Option.map_eq_none_iff, chosen?_eq_none_iff]

/-! ## What is chosen -/

theorem isExternal_of_eligible {f : Frame} (h : isEligible es cs f = true) : isExternal f = true := by
  rw [isEligible, Bool.and_eq_true, Bool.and_eq_true] at h
  exact h.1.1

theorem chosen?_of_eligible (h : ∃ f ∈ frames, isEligible es cs f = true) :
    ∃ f, chosen? es cs frames = some f ∧ isEligible es cs f = true := by
  obtain ⟨g, hg, heligible⟩ := h
  cases hfind : frames.find? (isEligible es cs) with
  | none =>
    rw [List.find?_eq_none] at hfind
    exact absurd heligible (hfind g hg)
  | some f => exact ⟨f, by rw [chosen?, hfind, Option.some_or], List.find?_some hfind⟩

theorem chosen?_of_no_eligible (h : ¬ ∃ f ∈ frames, isEligible es cs f = true) :
    chosen? es cs frames = frames.head? := by
  have hfind : frames.find? (isEligible es cs) = none := by
    rw [List.find?_eq_none]
    exact fun f hf heligible => h ⟨f, hf, heligible⟩
  rw [chosen?, hfind, Option.none_or]

/-- the packages that leave no frame eligible: the module of every one of them -/
def modulesOf (frames : List Frame) : List String := frames.map fun f => String.ofList (component f.symbol)

theorem isWithin_self (p : List Char) : isWithin p p = true := by
  simp [isWithin, Text.afterPrefix?]

theorem not_eligible_modulesOf : ¬ ∃ f ∈ frames, isEligible (modulesOf frames) cs f = true := by
  rintro ⟨f, hf, heligible⟩
  have hskipped : isSkipped (component f.symbol) (modulesOf frames) = true := by
    rw [isSkipped, List.any_eq_true]
    exact ⟨_, List.mem_map_of_mem hf, by rw [String.toList_ofList]; exact isWithin_self _⟩
  rw [isEligible, hskipped] at heligible
  simp at heligible

/-- only external frames are reported as the caller, and nothing when none is left -/
structure OnlyExternal (es cs : List String) (frames : List Frame) (skip : Nat) : Prop where
  chosen : ∀ f, chosen? es cs (candidates frames skip) = some f → isExternal f = true
  none_left : (∀ f ∈ candidates frames skip, isExternal f = false) → select frames skip es cs = none

theorem chosen?_mem {f : Frame} (h : chosen? es cs frames = some f) : f ∈ frames := by
  rcases Option.or_eq_some_iff.1 h with hfind | ⟨-, hhead⟩
  · exact List.mem_of_find?_eq_some hfind
  · exact List.mem_of_mem_head? hhead

/-- where only external frames are chosen, nothing is reported when none is left -/
theorem onlyExternal_of_chosen {skip : Nat}
    (h : ∀ f, chosen? es cs (candidates frames skip) = some f → isExternal f = true) :
    OnlyExternal es cs frames skip := by
  refine ⟨h, fun hinternal => ?_⟩
  rw [select_eq]
  cases hchosen : chosen? es cs (candidates frames skip) with
  | none => rfl
  | some f => exact absurd ((hinternal f (chosen?_mem hchosen)).symm.trans (h f hchosen)) Bool.false_ne_true

/-- **Internal frames as callers.** Only external frames are reported exactly where an eligible frame is left, or
where the skip does not end at an internal one; and whatever the packages to be stepped over, exactly where it does
not. -/
theorem only_external_iff (frames : List Frame) (skip : Nat) :
    (∀ es cs, OnlyExternal es cs frames skip ↔
      (∃ f ∈ candidates frames skip, isEligible es cs f = true) ∨
        ∀ f, (candidates frames skip).head? = some f → isExternal f = true) ∧
    ((∀ es cs, OnlyExternal es cs frames skip) ↔
      ∀ f, (candidates frames skip).head? = some f → isExternal f = true) := by
  have hpackages : ∀ es cs, OnlyExternal es cs frames skip ↔
      (∃ f ∈ candidates frames skip, isEligible es cs f = true) ∨
        ∀ f, (candidates frames skip).head? = some f → isExternal f = true := by
    intro es cs
    by_cases heligible : ∃ f ∈ candidates frames skip, isEligible es cs f = true
    · obtain ⟨f, hf, hchosen⟩ := chosen?_of_eligible heligible
      refine iff_of_true (onlyExternal_of_chosen fun g hg => ?_) (Or.inl heligible)
      rw [Option.some.inj (hg.symm.trans hf)]
      exact isExternal_of_eligible hchosen
    · have hhead := chosen?_of_no_eligible heligible
      rw [or_iff_right heligible, ← hhead]
      exact ⟨OnlyExternal.chosen, onlyExternal_of_chosen⟩
  refine ⟨hpackages, fun h => ?_, fun h es cs => (hpackages es cs).2 (Or.inr h)⟩
  exact ((hpackages (modulesOf (candidates frames skip)) []).1 (h _ _)).resolve_left not_eligible_modulesOf

/-- the main function of a program, and the frame of the runtime that called it -/
def mainTrace : List Frame :=
  [⟨"app::main".toList, some ("./src/main.rs".toList, 3)⟩,
   ⟨"std::rt::lang_start".toList, some ("/rustc/abc/library/std/src/rt.rs".toList, 165)⟩]

/-- **A frame of the runtime is reported as the caller** when the skip ends at it; no external frame has this caller. -/
theorem runtime_frame_reported :
    ¬ OnlyExternal [] [] mainTrace 1 ∧ select mainTrace 1 [] [] = some ⟨"std::rt".toList, "rt.rs:165".toList⟩ ∧
      ∀ f ∈ mainTrace, isExternal f = true → callerOf f ≠ ⟨"std::rt".toList, "rt.rs:165".toList⟩ := by
  have hreported : select mainTrace 1 [] [] = some ⟨"std::rt".toList, "rt.rs:165".toList⟩ := by decide
  refine ⟨fun h => ?_, hreported, by decide⟩
  have hnone := h.none_left (by decide)
  rw [hreported] at hnone
  cases hnone

/-! ## Places in 64 bits -/

theorem start_eq_iff {first skip : Nat} : start first skip = first + skip ↔ first + skip < UInt64.size := by
  constructor
  · intro h
    exact h ▸ Nat.mod_lt _ (by decide)
  · exact Nat.mod_eq_of_lt

theorem start_lt {first : Nat} {skip : UInt64} (h : UInt64.size ≤ first + skip.toNat) :
    start first skip.toNat < first := by
  have hskip := skip.toNat_lt_size
  calc start first skip.toNat = (first + skip.toNat - UInt64.size) % UInt64.size := Nat.mod_eq_sub_mod h
    _ ≤ first + skip.toNat - UInt64.size := Nat.mod_le _ _
    _ < first := by omega

theorem first?_lt {first : Nat} (h : first? frames = some first) : first < frames.length :=
  (List.findIdx?_eq_some_iff_getElem.1 h).1

theorem candidates_eq {first : Nat} (h : first? frames = some first) (skip : Nat) :
    candidates frames skip = frames.drop (start first skip) := by
  rw [candidates, h]

/-- a skip counts from the first external frame on: it leads to no earlier place, and nothing is found past the end -/
structure CountsOn (frames : List Frame) (skip : Nat) : Prop where
  onward : ∀ first, first? frames = some first → start first skip = first + skip
  exhausted : ∀ first, first? frames = some first → frames.length ≤ first + skip →
    ∀ es cs, (Site.stack skip).resolve frames es cs = none

theorem countsOn_iff {skip : Nat} :
    CountsOn frames skip ↔ ∀ first, first? frames = some first → first + skip < UInt64.size := by
  constructor
  · intro h first hfirst
    exact start_eq_iff.1 (h.onward first hfirst)
  · intro h
    refine ⟨fun first hfirst => start_eq_iff.2 (h first hfirst), fun first hfirst hpast es cs => ?_⟩
    change select frames skip es cs = none
    rw [select_eq_none_iff, candidates_eq hfirst, start_eq_iff.2 (h first hfirst)]
    exact List.drop_eq_nil_of_le hpast

/-- from an earlier place on there are frames, so a caller is reported -/
theorem exists_caller_of_wrap {first : Nat} {skip : UInt64} (hfirst : first? frames = some first)
    (h : UInt64.size ≤ first + skip.toNat) (es cs : List String) :
    ∃ c, (Site.stack skip.toNat).resolve frames es cs = some c := by
  have hlt : start first skip.toNat < frames.length := (start_lt h).trans (first?_lt hfirst)
  have hne : candidates frames skip.toNat ≠ [] := by
    rw [candidates_eq hfirst]
    exact fun hnil => absurd (List.drop_eq_nil_iff.1 hnil) (Nat.not_le.2 hlt)
  exact Option.ne_none_iff_exists'.1 (mt select_eq_none_iff.1 hne)

/-- **A skip may lead back.** A skip of 64 bits counts from the first external frame on exactly where the sum of place
and skip has 64 bits, too. Where it has not, the search begins before the first external frame, and a caller is found,
however short the trace. So every skip counts on exactly in traces with no internal frame before the first external
one. -/
theorem skip_in_range_iff (frames : List Frame) :
    (∀ skip : UInt64, CountsOn frames skip.toNat ↔
      ∀ first, first? frames = some first → first + skip.toNat < UInt64.size) ∧
    (∀ (skip : UInt64) (first : Nat), first? frames = some first → UInt64.size ≤ first + skip.toNat →
      start first skip.toNat < first ∧ ∀ es cs, ∃ c, (Site.stack skip.toNat).resolve frames es cs = some c) ∧
    ((∀ skip : UInt64, CountsOn frames skip.toNat) ↔ ∀ first, first? frames = some first → first = 0) := by
  refine ⟨fun skip => countsOn_iff,
    fun skip first hfirst hwrap => ⟨start_lt hwrap, exists_caller_of_wrap hfirst hwrap⟩, ?_⟩
  constructor
  · intro h first hfirst
    -- the largest skip of 64 bits leaves room for no place but the first
    have hlast := countsOn_iff.1 (h (UInt64.ofNat 18446744073709551615)) first hfirst
    have hsize : (UInt64.ofNat 18446744073709551615).toNat = UInt64.size - 1 := by decide
    rw [hsize] at hlast
    omega
  · intro h skip
    refine countsOn_iff.2 fun first hfirst => ?_
    rw [h first hfirst, Nat.zero_add]
    exact skip.toNat_lt_size

/-- a frame of the runtime, and the main function of a program below it -/
def shortTrace : List Frame := [⟨"std::rt::begin".toList, none⟩, ⟨"app::main".toList, none⟩]

/-- **The largest skip leads back** to the first frame of a trace of two, and what is found is found with no skip. -/
theorem skip_leads_back :
    ¬ CountsOn shortTrace 18446744073709551615 ∧ first? shortTrace = some 1 ∧ start 1 18446744073709551615 = 0 ∧
      (Site.stack 18446744073709551615).resolve shortTrace [] [] = some ⟨"app".toList, []⟩ := by
  have hfirst : first? shortTrace = some 1 := by decide
  have hstart : start 1 18446744073709551615 = 0 := by decide
  refine ⟨fun h => ?_, hfirst, hstart, by decide⟩
  have honward := h.onward 1 hfirst
  rw [hstart] at honward
  cases honward

end LogRelay.Trace
