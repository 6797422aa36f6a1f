/-
The octets of a text: which of them begin a character, where a text can be cut, and how it is read back.

A character below 128 is one octet, its number. Every other character begins with an octet from 192 on, and the one to
three octets after it go on with it.
- `octets_prefix_iff`: one text begins another exactly when its octets begin those of the other.
- `cut_octets`: what is kept of a text are the octets of a beginning of it.
- `cut_octets_append`: a text is cut just where it was asked to be, if a character ends there.
- `exists_cut`, `cut_octets_eq`: what is kept ends in front of the first character that does not fit.
- `cut_eq_take`: below 128 that is just where it was asked to be.
- `count_octets`: below 128, an octet stands among those of a text as often as its character in the text.
- `ofOctets_octets`: the octets of a text read as that text.
-/
import Mathlib.Tactic
import LogRelay.Text.Octets

namespace LogRelay.Text

/-! ## Characters -/

theorem isContinuation_low : ∀ k < 128, isContinuation (UInt8.ofNat k) = false := by decide

theorem isContinuation_middle : ∀ k < 64, isContinuation (UInt8.ofNat (k + 128)) = true := by decide

theorem isContinuation_high : ∀ k < 64, isContinuation (UInt8.ofNat (k + 192)) = false := by decide

theorem utf8EncodeChar_low {c : Char} (hc : c.toNat < 128) : String.utf8EncodeChar c = [UInt8.ofNat c.toNat] := by
  have h : c.val.toNat ≤ 127 := Nat.le_of_lt_succ hc
  rw [String.utf8EncodeChar.eq_1, if_pos h]
  rfl

/-- a character from 128 on: an octet from 192 on, and octets that go on with it -/
theorem utf8EncodeChar_high {c : Char} (hc : 128 ≤ c.toNat) :
    ∃ k < 64, ∃ ks : List Nat, (∀ i ∈ ks, i < 64) ∧
      String.utf8EncodeChar c = UInt8.ofNat (k + 192) :: ks.map fun i => UInt8.ofNat (i + 128) := by
  have h : ¬ c.val.toNat ≤ 127 := Nat.not_le.2 hc
  have hlt : ∀ n, n % 64 < 64 := fun n => Nat.mod_lt n (by norm_num)
  generalize hv : c.val.toNat = v at h
  rw [String.utf8EncodeChar.eq_1, hv, if_neg h]
  split_ifs
  · exact ⟨v / 64 % 32, by omega, [v % 64], by simp [hlt], rfl⟩
  · exact ⟨v / 4096 % 16 + 32, by omega, [v / 64 % 64, v % 64], by simp [hlt], rfl⟩
  · exact ⟨v / 262144 % 8 + 48, by omega, [v / 4096 % 64, v / 64 % 64, v % 64], by simp [hlt], rfl⟩

/-- the first octet of a character begins it, and the others go on with it -/
theorem utf8EncodeChar_cases (c : Char) :
    ∃ b bs, String.utf8EncodeChar c = b :: bs ∧ isContinuation b = false ∧ ∀ x ∈ bs, isContinuation x = true := by
  by_cases hc : c.toNat < 128
  · exact ⟨_, [], utf8EncodeChar_low hc, isContinuation_low _ hc, by simp⟩
  · obtain ⟨k, hk, ks, hks, heq⟩ := utf8EncodeChar_high (Nat.not_lt.1 hc)
    refine ⟨_, _, heq, isContinuation_high k hk, ?_⟩
    intro x hx
    obtain ⟨i, hi, rfl⟩ := List.mem_map.1 hx
    exact isContinuation_middle i (hks i hi)

/-- an octet below 128 stands in no character but its own -/
theorem count_utf8EncodeChar {c : Char} (hc : c.toNat < 128) (d : Char) :
    (String.utf8EncodeChar d).count (UInt8.ofNat c.toNat) = if d = c then 1 else 0 := by
  have hsmall : (UInt8.ofNat c.toNat).toNat = c.toNat := UInt8.toNat_ofNat_of_lt' (by simp [UInt8.size]; omega)
  by_cases hd : d.toNat < 128
  · have hdsmall : (UInt8.ofNat d.toNat).toNat = d.toNat := UInt8.toNat_ofNat_of_lt' (by simp [UInt8.size]; omega)
    have hiff : UInt8.ofNat d.toNat = UInt8.ofNat c.toNat ↔ d = c := by
      rw [← UInt8.toNat_inj, hsmall, hdsmall, Char.toNat_inj]
    rw [utf8EncodeChar_low hd, List.count_singleton]
    simp [hiff]
  · have hne : d ≠ c := by
      rintro rfl
      exact hd hc
    obtain ⟨k, hk, ks, hks, heq⟩ := utf8EncodeChar_high (Nat.not_lt.1 hd)
    rw [if_neg hne, heq, List.count_eq_zero]
    intro hmem
    have hbig : ∀ i < 128, (UInt8.ofNat (i + 128)).toNat = i + 128 := fun i hi =>
      UInt8.toNat_ofNat_of_lt' (by simp [UInt8.size]; omega)
    rcases List.mem_cons.1 hmem with h | h
    · have := hbig (k + 64) (by omega)
      rw [Nat.add_assoc] at this
      rw [h, this] at hsmall
      omega
    · obtain ⟨i, hi, h⟩ := List.mem_map.1 h
      have := hbig i (by have := hks i hi; omega)
      rw [← h, this] at hsmall
      omega

/-! ## Texts -/

theorem octets_cons (c : Char) (cs : List Char) : octets (c :: cs) = String.utf8EncodeChar c ++ octets cs := by
  simp [octets]

theorem length_le_octets (cs : List Char) : cs.length ≤ (octets cs).length := by
  induction cs with
  | nil => exact Nat.le_refl _
  | cons c cs ih =>
    obtain ⟨b, bs, heq, -⟩ := utf8EncodeChar_cases c
    rw [octets_cons, heq, List.length_append, List.length_cons, List.length_cons]
    omega

/-- an octet below 128 stands among the octets of a text as often as its character in the text -/
theorem count_octets {c : Char} (hc : c.toNat < 128) (cs : List Char) :
    (octets cs).count (UInt8.ofNat c.toNat) = cs.count c := by
  induction cs with
  | nil => rfl
  | cons d cs ih =>
    rw [octets_cons, List.count_append, count_utf8EncodeChar hc, ih, List.count_cons]
    by_cases hd : d = c
    · simp [hd, Nat.add_comm]
    · simp [hd]

/-- no text begins with an octet that goes on with a character -/
theorem isContinuation_head (cs : List Char) : ((octets cs)[0]?).any isContinuation = false := by
  cases cs with
  | nil => rfl
  | cons c cs =>
    obtain ⟨b, bs, heq, hb, -⟩ := utf8EncodeChar_cases c
    rw [octets_cons, heq]
    simpa using hb

/-- where no character is split, the octets before the place are those of a beginning of the text -/
theorem take_octets (cs : List Char) (m : Nat) (h : m = 0 ∨ ((octets cs)[m]?).any isContinuation = false) :
    ∃ u, u <+: cs ∧ (octets cs).take m = octets u := by
  induction cs generalizing m with
  | nil => exact ⟨[], List.nil_prefix, by simp⟩
  | cons c cs ih =>
    obtain ⟨b, bs, heq, -, hbs⟩ := utf8EncodeChar_cases c
    rw [octets_cons] at h ⊢
    set e := String.utf8EncodeChar c with he
    by_cases hm : m < e.length
    · -- inside the first character there is only its beginning
      rcases h with rfl | h
      · exact ⟨[], List.nil_prefix, by simp⟩
      · cases m with
        | zero => exact ⟨[], List.nil_prefix, by simp⟩
        | succ m =>
          have hmem : (e ++ octets cs)[m + 1]? = bs[m]? := by
            rw [List.getElem?_append_left hm, heq, List.getElem?_cons_succ]
          have hlt : m < bs.length := by rw [heq, List.length_cons] at hm; omega
          rw [hmem, List.getElem?_eq_getElem hlt, Option.any_some, hbs _ (List.getElem_mem hlt)] at h
          cases h
    · have hle : e.length ≤ m := Nat.le_of_not_lt hm
      have hrest : m - e.length = 0 ∨ ((octets cs)[m - e.length]?).any isContinuation = false := by
        rcases h with rfl | h
        · exact Or.inl (Nat.zero_sub _)
        · rw [List.getElem?_append_right hle] at h
          exact Or.inr h
      obtain ⟨u, hu, htake⟩ := ih _ hrest
      refine ⟨c :: u, (List.prefix_cons_inj c).2 hu, ?_⟩
      rw [List.take_append, List.take_of_length_le hle, htake, octets_cons]

/-- a character is known from its octets, whatever comes after them -/
theorem utf8EncodeChar_append_inj {c d : Char} {x y : Octets}
    (h : String.utf8EncodeChar c ++ x = String.utf8EncodeChar d ++ y) : c = d ∧ x = y := by
  have hread : ∀ (a : Char) (z : Octets), (String.utf8EncodeChar a ++ z).toByteArray.utf8DecodeChar? 0 = some a := by
    intro a z
    rw [List.toByteArray_append]
    exact ByteArray.utf8DecodeChar?_utf8EncodeChar_append
  have hcd : some c = some d := by rw [← hread c x, h, hread d y]
  obtain rfl := Option.some_injective _ hcd
  exact ⟨rfl, List.append_cancel_left h⟩

theorem length_octets_cons (c : Char) (cs : List Char) :
    (octets (c :: cs)).length = c.utf8Size + (octets cs).length := by
  rw [octets_cons, List.length_append, String.length_utf8EncodeChar]

/-- one text begins another exactly when its octets begin those of the other -/
theorem octets_prefix_iff {a b : List Char} : octets a <+: octets b ↔ a <+: b := by
  constructor
  · intro h
    induction a generalizing b with
    | nil => exact List.nil_prefix
    | cons c a ih =>
      cases b with
      | nil =>
        have hlen := h.length_le
        have hpos := c.utf8Size_pos
        rw [length_octets_cons, octets_nil, List.length_nil] at hlen
        omega
      | cons d b =>
        obtain ⟨r, hr⟩ := h
        rw [octets_cons, octets_cons, List.append_assoc] at hr
        obtain ⟨rfl, hrest⟩ := utf8EncodeChar_append_inj hr
        exact (List.prefix_cons_inj c).2 (ih ⟨r, hrest⟩)
  · rintro ⟨r, rfl⟩
    exact ⟨octets r, (octets_append a r).symm⟩

/-! ## Cuts -/

theorem boundary_cases (s : Octets) (n : Nat) : boundary s n = 0 ∨ (s[boundary s n]?).any isContinuation = false := by
  induction n with
  | zero => exact Or.inl rfl
  | succ n ih =>
    unfold boundary
    split
    · exact ih
    · next h => exact Or.inr (Bool.eq_false_iff.2 h)

theorem boundary_eq_self {s : Octets} {n : Nat} (h : (s[n]?).any isContinuation = false) : boundary s n = n := by
  cases n with
  | zero => rfl
  | succ n => simp [boundary, h]

/-- what is kept of a text that is cut is a beginning of it -/
theorem cut_octets (cs : List Char) (n : Nat) : ∃ u, u <+: cs ∧ cut (octets cs) n = octets u :=
  take_octets cs _ (boundary_cases (octets cs) n)

/-- a text is cut where it was asked to be, if a character ends there -/
theorem cut_octets_append (u v : List Char) : cut (octets (u ++ v)) (octets u).length = octets u := by
  have hplace : ((octets (u ++ v))[(octets u).length]?).any isContinuation = false := by
    rw [octets_append, List.getElem?_append_right (Nat.le_refl _), Nat.sub_self]
    exact isContinuation_head v
  rw [cut, boundary_eq_self hplace, octets_append, List.take_left]

theorem cut_of_le {s : Octets} {n : Nat} (h : s.length ≤ n) : cut s n = s := by
  have hplace : (s[n]?).any isContinuation = false := by rw [List.getElem?_eq_none h]; rfl
  rw [cut, boundary_eq_self hplace, List.take_of_length_le h]

/-- the place where a text is cut is the last one that splits no character -/
theorem le_boundary {s : Octets} {m n : Nat} (hmn : m ≤ n) (h : (s[m]?).any isContinuation = false) :
    m ≤ boundary s n := by
  induction n with
  | zero => simpa [boundary] using hmn
  | succ n ih =>
    rcases Nat.le_succ_iff.1 hmn with hle | rfl
    · unfold boundary
      split
      · exact ih hle
      · exact hmn
    · rw [boundary_eq_self h]

/-- all that fits is kept -/
theorem octets_prefix_cut {u v : List Char} {n : Nat} (hfit : (octets u).length ≤ n) :
    octets u <+: cut (octets (u ++ v)) n := by
  have hplace : ((octets (u ++ v))[(octets u).length]?).any isContinuation = false := by
    rw [octets_append, List.getElem?_append_right (Nat.le_refl _), Nat.sub_self]
    exact isContinuation_head v
  rw [cut, List.prefix_take_iff]
  exact ⟨octets_prefix_iff.2 (List.prefix_append u v), le_boundary hfit hplace⟩

/-- a text in two: what is kept of it, and a rest that begins with a character that does not fit -/
theorem exists_cut (cs : List Char) (n : Nat) :
    ∃ u v, cs = u ++ v ∧ cut (octets cs) n = octets u ∧ (octets u).length ≤ n ∧
      ∀ c ∈ v.head?, n < (octets u).length + c.utf8Size := by
  obtain ⟨u, ⟨v, rfl⟩, hcut⟩ := cut_octets cs n
  have hlen := cut_length_le (octets (u ++ v)) n
  rw [hcut] at hlen
  refine ⟨u, v, rfl, hcut, hlen, ?_⟩
  intro c hc
  obtain ⟨t, rfl⟩ := List.head?_eq_some_iff.1 hc
  have hone : (octets (u ++ [c])).length = (octets u).length + c.utf8Size := by
    rw [octets_append, List.length_append, length_octets_cons, octets_nil, List.length_nil, Nat.add_zero]
  by_contra hfits
  -- with this character the text would still fit, and be kept
  have hkept := octets_prefix_cut (u := u ++ [c]) (v := t) (n := n) (by omega)
  rw [List.append_assoc, List.singleton_append, hcut] at hkept
  have hle := hkept.length_le
  have hpos := c.utf8Size_pos
  omega

/-- what is kept of a text ends in front of the first character that does not fit -/
theorem cut_octets_eq {u v : List Char} {n : Nat} (hfit : (octets u).length ≤ n)
    (hover : ∀ c ∈ v.head?, n < (octets u).length + c.utf8Size) : cut (octets (u ++ v)) n = octets u := by
  obtain ⟨w, hw, hcut⟩ := cut_octets (u ++ v) n
  have hlen := cut_length_le (octets (u ++ v)) n
  have hkept := octets_prefix_cut (v := v) hfit
  rw [hcut] at hlen hkept ⊢
  obtain ⟨t, rfl⟩ := octets_prefix_iff.1 hkept
  rw [List.prefix_append_right_inj] at hw
  cases t with
  | nil => rw [List.append_nil]
  | cons c t =>
    obtain ⟨r, rfl⟩ := hw
    have hmore := hover c (by simp)
    rw [octets_append, List.length_append, length_octets_cons] at hlen
    omega

/-! ## Texts of single octets -/

/-- below 128 the octets of a text are the numbers of its characters -/
theorem octets_eq_map {cs : List Char} (h : ∀ c ∈ cs, c.toNat < 128) :
    octets cs = cs.map fun c => UInt8.ofNat c.toNat := by
  induction cs with
  | nil => rfl
  | cons c cs ih =>
    obtain ⟨hc, hcs⟩ := List.forall_mem_cons.1 h
    rw [octets_cons, utf8EncodeChar_low hc, ih hcs]
    rfl

/-- such a text can be cut at any place -/
theorem cut_eq_take {cs : List Char} (h : ∀ c ∈ cs, c.toNat < 128) (n : Nat) :
    cut (octets cs) n = (octets cs).take n := by
  rw [cut, boundary_eq_self]
  rw [octets_eq_map h, List.getElem?_map]
  cases hc : cs[n]? with
  | none => rfl
  | some c => exact isContinuation_low _ (h c (List.mem_of_getElem? hc))

/-! ## Reading back -/

theorem mk_octets (cs : List Char) : (⟨(octets cs).toArray⟩ : ByteArray) = cs.utf8Encode := by
  rw [ByteArray.ext_iff]
  exact List.data_toByteArray.symm

/-- the octets of a text are valid UTF-8 -/
theorem isValidUTF8_octets (cs : List Char) : (⟨(octets cs).toArray⟩ : ByteArray).IsValidUTF8 :=
  ⟨cs, mk_octets cs⟩

theorem ofOctets_octets (cs : List Char) : ofOctets (octets cs) = String.ofList cs := by
  have hvalid : cs.utf8Encode.IsValidUTF8 := ⟨cs, rfl⟩
  rw [ofOctets, mk_octets, String.fromUTF8?, dif_pos hvalid]
  rfl

end LogRelay.Text
