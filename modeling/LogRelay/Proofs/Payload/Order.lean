/-
Payloads hold each key once, and in the order of the keys.

The order of texts is strict and total (`before_irrefl`, `before_trans`, `before_or`), so the place of a key among
others is fixed. Setting a key keeps the order; so what is put together key by key is in order, and a list of fields
that is in order already is the payload it makes.
- `isOrdered_insert`, `isOrdered_ofList`: payloads are in order however they are made.
- `ofList_eq`: fields in order make the payload of just these fields.
- `get?_ofList`, `eq_of_get?`: under a key stands its last value, and fields in order are those they hold under each
  key.
-/
import Mathlib.Tactic
import LogRelay.Payload
import LogRelay.Proofs.Text.Octets

namespace LogRelay

/-! ## The order of texts -/

namespace Text

theorem octetsOf_injective {a b : String} (h : octetsOf a = octetsOf b) : a = b := by
  have hread := congrArg ofOctets h
  simpa only [octetsOf, ofOctets_octets, String.ofList_toList] using hread

theorem before_iff {a b : String} : before a b = true ↔ octetsOf a < octetsOf b := by
  rw [before, decide_eq_true_eq]

theorem before_irrefl (a : String) : before a a = false := by
  rw [before, decide_eq_false_iff_not]
  exact List.lt_irrefl (octetsOf a)

theorem before_trans {a b c : String} (h : before a b = true) (h' : before b c = true) : before a c = true := by
  rw [before_iff] at *
  exact List.lt_trans h h'

theorem before_asymm {a b : String} (h : before a b = true) : before b a = false := by
  rw [before_iff] at h
  rw [before, decide_eq_false_iff_not]
  exact List.lt_asymm h

theorem before_or {a b : String} (hne : a ≠ b) : before a b = true ∨ before b a = true := by
  rw [before_iff, before_iff]
  by_contra hneither
  rw [not_or, List.not_lt, List.not_lt] at hneither
  exact hne (octetsOf_injective (List.le_antisymm hneither.2 hneither.1))

end Text

open Text

namespace Value

mutual

/-- the keys of a map stand in their order, each once, and so do those of the maps in it -/
def isOrdered : Value → Bool
  | map fields => areOrdered fields
  | _ => true

def areOrdered : List (String × Value) → Bool
  | [] => true
  | (k, v) :: fs => v.isOrdered && fs.all (fun f => before k f.1) && areOrdered fs

end

/-- the keys of fields stand in their order, each once -/
def Ascending (fs : List (String × Value)) : Prop := fs.Pairwise fun f g => before f.1 g.1 = true

theorem ascending_cons {f : String × Value} {fs : List (String × Value)} :
    Ascending (f :: fs) ↔ (∀ g ∈ fs, before f.1 g.1 = true) ∧ Ascending fs := List.pairwise_cons

theorem areOrdered_cons {k : String} {v : Value} {fs : List (String × Value)} :
    areOrdered ((k, v) :: fs) = true ↔
      v.isOrdered = true ∧ (∀ f ∈ fs, before k f.1 = true) ∧ areOrdered fs = true := by
  rw [areOrdered, Bool.and_eq_true, Bool.and_eq_true, List.all_eq_true, and_assoc]

theorem areOrdered_iff {fs : List (String × Value)} :
    areOrdered fs = true ↔ Ascending fs ∧ ∀ f ∈ fs, f.2.isOrdered = true := by
  induction fs with
  | nil => simp [areOrdered, Ascending]
  | cons f fs ih =>
    rw [areOrdered_cons, ih, ascending_cons, List.forall_mem_cons]
    exact ⟨fun ⟨hv, hbefore, htail, hvs⟩ => ⟨⟨hbefore, htail⟩, hv, hvs⟩,
      fun ⟨⟨hbefore, htail⟩, hv, hvs⟩ => ⟨hv, hbefore, htail, hvs⟩⟩

end Value

namespace Payload

open Value

def isOrdered (p : Payload) : Bool := areOrdered p.fields

/-! ## Setting keys -/

/-- the keys after a key is set are those before, and this one -/
theorem of_mem_put {key : String} {value : Value} {fs : List (String × Value)} {f : String × Value}
    (h : f ∈ put key value fs) : f = (key, value) ∨ f ∈ fs := by
  induction fs with
  | nil => exact Or.inl (List.mem_singleton.1 h)
  | cons g fs ih =>
    obtain ⟨k, v⟩ := g
    rw [put] at h
    split_ifs at h
    · rcases List.mem_cons.1 h with rfl | h
      · exact Or.inl rfl
      · exact Or.inr (List.mem_cons_of_mem _ h)
    · rcases List.mem_cons.1 h with rfl | h
      · exact Or.inl rfl
      · exact Or.inr h
    · rcases List.mem_cons.1 h with rfl | h
      · exact Or.inr List.mem_cons_self
      · exact (ih h).imp_right (List.mem_cons_of_mem _)

theorem ascending_put (key : String) (value : Value) {fs : List (String × Value)} (h : Ascending fs) :
    Ascending (put key value fs) := by
  induction fs with
  | nil => exact List.pairwise_singleton _ _
  | cons g fs ih =>
    obtain ⟨k, v⟩ := g
    obtain ⟨hbefore, htail⟩ := ascending_cons.1 h
    rw [put]
    split_ifs with heq hfirst
    · subst heq
      exact ascending_cons.2 ⟨hbefore, htail⟩
    · refine ascending_cons.2 ⟨?_, h⟩
      intro f hf
      rcases List.mem_cons.1 hf with rfl | hf
      · exact hfirst
      · exact before_trans hfirst (hbefore f hf)
    · refine ascending_cons.2 ⟨?_, ih htail⟩
      intro f hf
      rcases of_mem_put hf with rfl | hf
      · exact (before_or heq).resolve_right hfirst
      · exact hbefore f hf

theorem areOrdered_put {key : String} {value : Value} {fs : List (String × Value)} (hv : value.isOrdered = true)
    (hfs : areOrdered fs = true) : areOrdered (put key value fs) = true := by
  rw [areOrdered_iff] at hfs ⊢
  refine ⟨ascending_put key value hfs.1, ?_⟩
  intro f hf
  rcases of_mem_put hf with rfl | hf
  · exact hv
  · exact hfs.2 f hf

theorem isOrdered_insert {p : Payload} (h : p.isOrdered = true) (key : String) {value : Value}
    (hv : value.isOrdered = true) : (p.insert key value).isOrdered = true := areOrdered_put hv h

theorem isOrdered_foldl_insert {fs : List (String × Value)} (hfs : ∀ f ∈ fs, f.2.isOrdered = true) {p : Payload}
    (hp : p.isOrdered = true) : (fs.foldl (fun p f => p.insert f.1 f.2) p).isOrdered = true := by
  induction fs generalizing p with
  | nil => exact hp
  | cons f fs ih =>
    apply ih
    · exact fun g hg => hfs g (List.mem_cons_of_mem f hg)
    · exact isOrdered_insert hp f.1 (hfs f List.mem_cons_self)

/-- a payload is in order when the maps in it are, in whatever order its fields were given -/
theorem isOrdered_ofList {fs : List (String × Value)} (hfs : ∀ f ∈ fs, f.2.isOrdered = true) :
    (ofList fs).isOrdered = true := by
  apply isOrdered_foldl_insert hfs
  rw [isOrdered, empty, areOrdered]

/-! ## Fields in order -/

/-- a key after all others is put at the end -/
theorem put_of_last {key : String} {fs : List (String × Value)} (h : ∀ f ∈ fs, before f.1 key = true) (value : Value) :
    put key value fs = fs ++ [(key, value)] := by
  induction fs with
  | nil => rfl
  | cons g fs ih =>
    obtain ⟨k, v⟩ := g
    have hk : before k key = true := h (k, v) List.mem_cons_self
    have hne : k ≠ key := by
      rintro rfl
      rw [before_irrefl] at hk
      cases hk
    have hlate : ¬ before key k = true := by
      rw [before_asymm hk]
      exact Bool.false_ne_true
    rw [put, if_neg hne, if_neg hlate, ih fun f hf => h f (List.mem_cons_of_mem _ hf)]
    rfl

theorem foldl_insert_eq {fs gs : List (String × Value)} (hfs : areOrdered fs = true)
    (hgs : ∀ g ∈ gs, ∀ f ∈ fs, before g.1 f.1 = true) :
    fs.foldl (fun p f => p.insert f.1 f.2) ⟨gs⟩ = (⟨gs ++ fs⟩ : Payload) := by
  induction fs generalizing gs with
  | nil => rw [List.foldl_nil, List.append_nil]
  | cons f fs ih =>
    obtain ⟨k, v⟩ := f
    obtain ⟨-, hbefore, htail⟩ := areOrdered_cons.1 hfs
    have hlast : (⟨gs⟩ : Payload).insert k v = ⟨gs ++ [(k, v)]⟩ := by
      rw [insert, put_of_last]
      exact fun g hg => hgs g hg (k, v) List.mem_cons_self
    have hbetween : ∀ g ∈ gs ++ [(k, v)], ∀ f ∈ fs, before g.1 f.1 = true := by
      intro g hg f hf
      rcases List.mem_append.1 hg with hg | hg
      · exact hgs g hg f (List.mem_cons_of_mem _ hf)
      · rw [List.mem_singleton] at hg
        rw [hg]
        exact hbefore f hf
    calc ((k, v) :: fs).foldl (fun p f => p.insert f.1 f.2) ⟨gs⟩
        = fs.foldl (fun p f => p.insert f.1 f.2) (⟨gs ++ [(k, v)]⟩ : Payload) := by rw [List.foldl_cons, hlast]
      _ = ⟨gs ++ [(k, v)] ++ fs⟩ := ih htail hbetween
      _ = ⟨gs ++ (k, v) :: fs⟩ := by
          rw [List.append_assoc]
          rfl

/-- fields in order make the payload of just these fields -/
theorem ofList_eq {fs : List (String × Value)} (h : areOrdered fs = true) : ofList fs = ⟨fs⟩ :=
  foldl_insert_eq h fun g hg => by cases hg

/-! ## The value under a key -/

/-- the last value that fields give a key -/
def lastValue? (key : String) (fs : List (String × Value)) : Option Value := fs.reverse.lookup key

theorem lookup_cons_eq (key k : String) (v : Value) (fs : List (String × Value)) :
    ((k, v) :: fs).lookup key = if key = k then some v else fs.lookup key := by
  rw [List.lookup_cons]
  split_ifs with h
  · rw [h, beq_self_eq_true]
  · rw [beq_false_of_ne h]

theorem get?_insert (p : Payload) (key key' : String) (value : Value) :
    (p.insert key value).get? key' = if key' = key then some value else p.get? key' := by
  rw [get?, get?, insert]
  induction p.fields with
  | nil => rw [put, lookup_cons_eq]
  | cons g fs ih =>
    obtain ⟨k, v⟩ := g
    rw [put]
    split_ifs with heq hfirst
    all_goals
      simp only [lookup_cons_eq, ih]
      split_ifs <;> simp_all

theorem get?_foldl_insert (fs : List (String × Value)) (p : Payload) (key : String) :
    (fs.foldl (fun p f => p.insert f.1 f.2) p).get? key = (lastValue? key fs).or (p.get? key) := by
  induction fs using List.reverseRecOn with
  | nil => rfl
  | append_singleton fs f ih =>
    rw [List.foldl_append, List.foldl_cons, List.foldl_nil, get?_insert, ih, lastValue?, lastValue?,
      List.reverse_append, List.reverse_singleton, List.singleton_append, lookup_cons_eq]
    split_ifs <;> rfl

/-- under each key stands its last value -/
theorem get?_ofList (fs : List (String × Value)) (key : String) : (ofList fs).get? key = lastValue? key fs := by
  rw [ofList, get?_foldl_insert]
  exact Option.or_none

theorem ascending_foldl_insert (fs : List (String × Value)) {p : Payload} (hp : Ascending p.fields) :
    Ascending (fs.foldl (fun p f => p.insert f.1 f.2) p).fields := by
  induction fs generalizing p with
  | nil => exact hp
  | cons f fs ih => exact ih (ascending_put f.1 f.2 hp)

theorem ascending_ofList (fs : List (String × Value)) : Ascending (ofList fs).fields :=
  ascending_foldl_insert fs List.Pairwise.nil

/-- fields in order are those they hold under each key -/
theorem mem_iff_lookup {fs : List (String × Value)} (h : Ascending fs) (key : String) (value : Value) :
    (key, value) ∈ fs ↔ fs.lookup key = some value := by
  induction fs with
  | nil => simp
  | cons g fs ih =>
    obtain ⟨k, v⟩ := g
    obtain ⟨hbefore, htail⟩ := ascending_cons.1 h
    rw [List.mem_cons, lookup_cons_eq, ih htail]
    split_ifs with heq
    · subst heq
      -- a key stands in front of all others, so not among them
      have hnone : fs.lookup key ≠ some value := by
        rw [ne_eq, ← ih htail]
        intro hmem
        have := hbefore _ hmem
        rw [before_irrefl] at this
        cases this
      simp [hnone, eq_comm]
    · simp [heq]

theorem eq_of_get? {p q : Payload} (hp : Ascending p.fields) (hq : Ascending q.fields)
    (h : ∀ key, p.get? key = q.get? key) : p = q := by
  have hirrefl : ∀ {fs}, Ascending fs → fs.Nodup := by
    intro fs hfs
    refine hfs.imp ?_
    rintro a b hab rfl
    rw [before_irrefl] at hab
    cases hab
  have hmem : ∀ f, f ∈ p.fields ↔ f ∈ q.fields := by
    rintro ⟨key, value⟩
    rw [mem_iff_lookup hp, mem_iff_lookup hq]
    exact Eq.congr_left (h key)
  have hperm : p.fields.Perm q.fields := (List.perm_ext_iff_of_nodup (hirrefl hp) (hirrefl hq)).2 hmem
  have hfields : p.fields = q.fields := by
    refine hperm.eq_of_pairwise ?_ hp hq
    intro a b _ _ hab hba
    rw [before_asymm hab] at hba
    cases hba
  cases p
  cases q
  exact congrArg _ hfields

end Payload
end LogRelay
