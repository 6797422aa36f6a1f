/-
What the choice of a caller depends on.

A frame qualifies when it belongs neither to the runtime or the relay nor to a package that is stepped over, be it
named by the event or by the configuration (`Qualifies`). A package takes in the module of its name and those below
it, and no module whose name merely begins like its own (`LiesIn`).
- `select_append`: internal frames above a trace do not count.
- `select_congr`: of the packages only the set matters, and not which list they are in.
- `select_first`, `select_fallback`: the first frame from the place on that qualifies is the caller, and the first of
  all when none does.
- `caller_chosen`: these together, for a trace in which the place is counted without overflow.
-/
import LogRelay.Proofs.Text.Split
import LogRelay.Proofs.Trace.Selection

namespace LogRelay.Trace

/-! ## Packages -/

/-- a module is a package, or lies below it -/
def LiesIn (module package : List Char) : Prop := module = package ∨ package ++ "::".toList <+: module

/-- a frame is neither internal nor in one of the packages -/
def Qualifies (packages : List String) (f : Frame) : Prop :=
  isExternal f = true ∧ ∀ p ∈ packages, ¬ LiesIn (component f.symbol) p.toList

/-- of the modules whose names begin with the name of a package, it takes in itself and those below it -/
theorem liesIn_append {package rest : List Char} :
    LiesIn (package ++ rest) package ↔ rest = [] ∨ "::".toList <+: rest := by
  rw [LiesIn, List.append_right_eq_self, List.prefix_append_right_inj]

theorem LiesIn.begins {module package : List Char} (h : LiesIn module package) : package <+: module := by
  rcases h with rfl | hbelow
  · exact List.prefix_refl _
  · exact (List.prefix_append _ _).trans hbelow

theorem isWithin_iff {package module : List Char} : isWithin package module = true ↔ LiesIn module package := by
  by_cases hprefix : package <+: module
  · obtain ⟨rest, rfl⟩ := hprefix
    rw [isWithin, Text.afterPrefix?_append, liesIn_append]
    simp only [Bool.or_eq_true, List.isEmpty_iff, List.isPrefixOf_iff_prefix]
  · have hnone : Text.afterPrefix? package module = none := if_neg fun h => hprefix (List.isPrefixOf_iff_prefix.1 h)
    rw [isWithin, hnone]
    exact iff_of_false Bool.false_ne_true fun h => hprefix h.begins

theorem isSkipped_iff {module : List Char} {packages : List String} :
    isSkipped module packages = true ↔ ∃ p ∈ packages, LiesIn module p.toList := by
  simp only [isSkipped, List.any_eq_true, isWithin_iff]

theorem isEligible_iff {es cs : List String} {f : Frame} : isEligible es cs f = true ↔ Qualifies (es ++ cs) f := by
  simp only [isEligible, Bool.and_eq_true, Bool.not_eq_true', Bool.eq_false_iff, ne_eq, isSkipped_iff, Qualifies,
    isExternal, List.mem_append, or_imp, forall_and, not_exists, not_and, and_assoc]

/-! ## Frames above -/

theorem first?_append {internal : List Frame} (h : ∀ f ∈ internal, isExternal f = false) (frames : List Frame) :
    first? (internal ++ frames) = (first? frames).map (· + internal.length) := by
  have hnone : internal.findIdx? isExternal = none := List.findIdx?_eq_none_iff.2 h
  rw [first?, List.findIdx?_append, hnone, Option.none_or]
  rfl

/-- where a place and a skip are added without overflow -/
def InRange (frames : List Frame) (skip : Nat) : Prop :=
  ∀ first, first? frames = some first → first + skip < UInt64.size

theorem candidates_append {internal frames : List Frame} {skip : Nat} (h : ∀ f ∈ internal, isExternal f = false)
    (hrange : InRange (internal ++ frames) skip) : candidates (internal ++ frames) skip = candidates frames skip := by
  have hfirst := first?_append h frames
  cases hplace : first? frames with
  | none =>
    rw [hplace] at hfirst
    simp only [candidates, hfirst, hplace, Option.map_none]
  | some first =>
    rw [hplace] at hfirst
    have hlt : first + internal.length + skip < UInt64.size := hrange _ hfirst
    have hplaces : start (first + internal.length) skip = internal.length + start first skip := by
      rw [start_eq_iff.2 hlt, start_eq_iff.2 (by omega)]
      omega
    rw [candidates_eq hfirst, candidates_eq hplace, hplaces, List.drop_append]
    simp

/-- **Internal frames above a trace do not count.** -/
theorem select_append {internal frames : List Frame} {skip : Nat} (h : ∀ f ∈ internal, isExternal f = false)
    (hrange : InRange (internal ++ frames) skip) (es cs : List String) :
    select (internal ++ frames) skip es cs = select frames skip es cs := by
  rw [select_eq, select_eq, candidates_append h hrange]

/-! ## Packages in any order -/

theorem mem_of_mem_candidates {frames : List Frame} {skip : Nat} {f : Frame} (h : f ∈ candidates frames skip) :
    f ∈ frames := by
  rw [candidates] at h
  split at h
  · exact absurd h List.not_mem_nil
  · exact List.mem_of_mem_drop h

/-- packages that the same frames qualify beside are the same for the choice -/
theorem select_congr_of_qualifies {frames : List Frame} {es cs es' cs' : List String}
    (h : ∀ f ∈ frames, Qualifies (es' ++ cs') f ↔ Qualifies (es ++ cs) f) (skip : Nat) :
    select frames skip es' cs' = select frames skip es cs := by
  have hfind : (candidates frames skip).find? (isEligible es' cs') =
      (candidates frames skip).find? (isEligible es cs) := by
    refine List.find?_congr fun f hf => ?_
    rw [Bool.eq_iff_iff, isEligible_iff, isEligible_iff]
    exact h f (mem_of_mem_candidates hf)
  rw [select_eq, select_eq, chosen?, chosen?, hfind]

/-- **Only the set of packages counts**: neither their order, nor how often they are named, nor by whom. -/
theorem select_congr {es cs es' cs' : List String} (h : ∀ p, p ∈ es' ++ cs' ↔ p ∈ es ++ cs)
    (frames : List Frame) (skip : Nat) :
    select frames skip es' cs' = select frames skip es cs := by
  apply select_congr_of_qualifies
  intro f _
  simp only [Qualifies, h]

/-- **A name that modules merely begin like makes no difference.** -/
theorem select_cons {frames : List Frame} {p : String} (skip : Nat) (es cs : List String)
    (h : ∀ f ∈ frames, ∀ rest, component f.symbol = p.toList ++ rest → rest ≠ [] ∧ ¬ "::".toList <+: rest) :
    select frames skip (p :: es) cs = select frames skip es cs := by
  have hnot : ∀ f ∈ frames, ¬ LiesIn (component f.symbol) p.toList := by
    intro f hf hin
    obtain ⟨rest, hrest⟩ := hin.begins
    obtain ⟨hne, hbelow⟩ := h f hf rest hrest.symm
    rw [← hrest] at hin
    exact (liesIn_append.1 hin).elim hne hbelow
  apply select_congr_of_qualifies
  intro f hf
  simp only [Qualifies, List.cons_append, List.forall_mem_cons, hnot f hf, not_false_eq_true, true_and]

/-! ## The first frame that qualifies -/

/-- the first frame from a place on that has a property -/
structure IsFirst (P : Frame → Prop) (frames : List Frame) (place i : Nat) (f : Frame) : Prop where
  place_le : place ≤ i
  frame : frames[i]? = some f
  holds : P f
  before : ∀ j g, place ≤ j → j < i → frames[j]? = some g → ¬ P g

section

variable {frames : List Frame} {skip first : Nat} {es cs : List String} (hfirst : first? frames = some first)
  (hrange : first + skip < UInt64.size)

include hfirst hrange

theorem candidates_of_range : candidates frames skip = frames.drop (first + skip) := by
  rw [candidates_eq hfirst, start_eq_iff.2 hrange]

theorem select_first (h : ∃ i f, first + skip ≤ i ∧ frames[i]? = some f ∧ Qualifies (es ++ cs) f) :
    ∃ i f, IsFirst (Qualifies (es ++ cs)) frames (first + skip) i f ∧ select frames skip es cs = some (callerOf f) := by
  obtain ⟨i, g, hle, hg, hqualifies⟩ := h
  obtain ⟨k, rfl⟩ := Nat.exists_eq_add_of_le hle
  have hmem : g ∈ frames.drop (first + skip) := List.mem_of_getElem? (List.getElem?_drop.trans hg)
  cases hfind : (frames.drop (first + skip)).find? (isEligible es cs) with
  | none => exact absurd (isEligible_iff.2 hqualifies) (List.find?_eq_none.1 hfind g hmem)
  | some f =>
    obtain ⟨heligible, n, hn, hf, hbefore⟩ := List.find?_eq_some_iff_getElem.1 hfind
    refine ⟨first + skip + n, f, ⟨Nat.le_add_right _ _, ?_, isEligible_iff.1 heligible, ?_⟩, ?_⟩
    · rw [← List.getElem?_drop, List.getElem?_eq_getElem hn, hf]
    · intro j d hj hlt hd hqualifies
      obtain ⟨m, rfl⟩ := Nat.exists_eq_add_of_le hj
      have hget : (frames.drop (first + skip))[m] = d :=
        Option.some.inj ((List.getElem?_eq_getElem _).symm.trans (List.getElem?_drop.trans hd))
      have hnot := hbefore m (by omega)
      rw [hget, isEligible_iff.2 hqualifies] at hnot
      cases hnot
    · rw [select_eq, candidates_of_range hfirst hrange, chosen?, hfind]
      rfl

theorem select_fallback (h : ∀ i f, first + skip ≤ i → frames[i]? = some f → ¬ Qualifies (es ++ cs) f) :
    select frames skip es cs = frames[first + skip]?.map callerOf := by
  have hnone : ¬ ∃ f ∈ frames.drop (first + skip), isEligible es cs f = true := by
    rintro ⟨f, hf, heligible⟩
    obtain ⟨n, hn⟩ := List.mem_iff_getElem?.1 hf
    exact h _ f (Nat.le_add_right _ n) (List.getElem?_drop ▸ hn) (isEligible_iff.1 heligible)
  rw [select_eq, candidates_of_range hfirst hrange, chosen?_of_no_eligible hnone, List.head?_drop]

end

/-! ## Main result -/

/-- **What the choice of a caller depends on.**
- Internal frames put above a trace do not change the caller, as long as place and skip are added without overflow.
- Packages may be put in another order, named more than once, and moved between event and configuration: as long as
  the same packages are named, the caller is the same.
- Without overflow, the caller is the first frame from the place on that qualifies, if one does; if none does, it is the
  first one from the place on, if there is one.
- A package whose name the modules of the trace at most begin like, in the middle of a segment, makes no difference. -/
theorem caller_chosen (frames : List Frame) (skip : Nat) (es cs : List String) :
    (∀ internal, (∀ f ∈ internal, isExternal f = false) → InRange (internal ++ frames) skip →
      select (internal ++ frames) skip es cs = select frames skip es cs) ∧
    (∀ es' cs', (∀ p, p ∈ es' ++ cs' ↔ p ∈ es ++ cs) → select frames skip es' cs' = select frames skip es cs) ∧
    (∀ first, first? frames = some first → first + skip < UInt64.size →
      ((∃ i f, first + skip ≤ i ∧ frames[i]? = some f ∧ Qualifies (es ++ cs) f) →
        ∃ i f, IsFirst (Qualifies (es ++ cs)) frames (first + skip) i f ∧
          select frames skip es cs = some (callerOf f)) ∧
      ((∀ i f, first + skip ≤ i → frames[i]? = some f → ¬ Qualifies (es ++ cs) f) →
        select frames skip es cs = frames[first + skip]?.map callerOf)) ∧
    ∀ p : String, (∀ f ∈ frames, ∀ rest, component f.symbol = p.toList ++ rest → rest ≠ [] ∧ ¬ "::".toList <+: rest) →
      select frames skip (p :: es) cs = select frames skip es cs := by
  refine ⟨?_, ?_, ?_, ?_⟩
  · intro internal hinternal hrange
    exact select_append hinternal hrange es cs
  · intro es' cs' h
    exact select_congr h frames skip
  · intro first hfirst hrange
    exact ⟨select_first hfirst hrange, select_fallback hfirst hrange⟩
  · intro p hp
    exact select_cons skip es cs hp

/-- a frame of the runtime, three of a program, and a frame of the runtime that called it -/
def programTrace : List Frame :=
  [⟨"std::rt::begin".toList, none⟩, ⟨"app::wrapper::log_error".toList, some ("./src/wrapper.rs".toList, 12)⟩,
    ⟨"app::wrap::log".toList, some ("./src/wrap.rs".toList, 3)⟩, ⟨"app::main".toList, some ("./src/main.rs".toList, 3)⟩,
    ⟨"std::rt::lang_start".toList, none⟩]

def runtimeFrames : List Frame := [⟨"<unknown>".toList, none⟩, ⟨"std::backtrace::Backtrace::create".toList, none⟩]

/-- in `programTrace` without `app::wrapper` the second frame of the program is chosen. It stays when there are more
frames of the runtime above, when the configuration names the package, twice, and when `app::wra` is named, too.
Without `app` no frame is left, and the first one of the program is chosen. -/
theorem caller_chosen_wrapped :
    let caller : Option Caller := some ⟨"app::wrap".toList, "wrap.rs:3".toList⟩
    (first? programTrace = some 1 ∧ ∃ i f, IsFirst (Qualifies ["app::wrapper"]) programTrace 1 i f ∧
      select programTrace 0 ["app::wrapper"] [] = some (callerOf f)) ∧
    ((∀ f ∈ runtimeFrames, isExternal f = false) ∧ InRange (runtimeFrames ++ programTrace) 0 ∧
      select (runtimeFrames ++ programTrace) 0 ["app::wrapper"] [] = caller) ∧
    ((∀ p, p ∈ [] ++ ["app::wrapper", "app::wrapper"] ↔ p ∈ ["app::wrapper"] ++ []) ∧
      select programTrace 0 [] ["app::wrapper", "app::wrapper"] = caller) ∧
    ((∀ f ∈ programTrace, ¬ LiesIn (component f.symbol) "app::wra".toList) ∧
      select programTrace 0 ["app::wra", "app::wrapper"] [] = caller) ∧
    (∀ i f, 1 ≤ i → programTrace[i]? = some f → ¬ Qualifies ["app"] f) ∧
      select programTrace 0 ["app"] [] = some ⟨"app::wrapper".toList, "wrapper.rs:12".toList⟩ := by
  intro caller
  obtain ⟨habove, hset, hfirst, hbegins⟩ := caller_chosen programTrace 0 ["app::wrapper"] []
  have hplace : first? programTrace = some 1 := by decide
  have hcaller : select programTrace 0 ["app::wrapper"] [] = caller := by decide
  have hinternal : ∀ f ∈ runtimeFrames, isExternal f = false := by decide
  have hrange : InRange (runtimeFrames ++ programTrace) 0 := by
    intro first h
    have hthird : first? (runtimeFrames ++ programTrace) = some 3 := by decide
    rw [hthird] at h
    cases h
    decide
  have hwra : ∀ f ∈ programTrace, ¬ LiesIn (component f.symbol) "app::wra".toList := by
    simp only [← isWithin_iff]
    decide
  have hnone : ∀ i f, 1 ≤ i → programTrace[i]? = some f → ¬ Qualifies ["app"] f := by
    intro i f hi hf
    obtain ⟨k, rfl⟩ := Nat.exists_eq_add_of_le hi
    have hdropped : f ∈ programTrace.drop 1 := List.mem_of_getElem? (List.getElem?_drop.trans hf)
    have hidle : ∀ g ∈ programTrace.drop 1, ¬ isEligible ["app"] [] g = true := by decide
    exact fun h => hidle f hdropped (isEligible_iff.2 h)
  refine ⟨⟨hplace, ?_⟩, ⟨hinternal, hrange, ?_⟩, ⟨by simp, ?_⟩, ⟨hwra, ?_⟩, hnone, ?_⟩
  · exact (hfirst 1 hplace (by decide)).1 ⟨2, _, by decide, rfl, isEligible_iff.1 (by decide)⟩
  · exact (habove runtimeFrames hinternal hrange).trans hcaller
  · exact (hset [] ["app::wrapper", "app::wrapper"] (by simp)).trans hcaller
  · refine (hbegins "app::wra" fun f hf rest hrest => ?_).trans hcaller
    have hnot := hwra f hf
    rw [hrest, liesIn_append] at hnot
    exact not_or.1 hnot
  · exact ((caller_chosen programTrace 0 ["app"] []).2.2.1 1 hplace (by decide)).2 hnone

end LogRelay.Trace
