/-
What is hidden, and what is not.

A dissection cuts a text in front of each key that a password follows, and behind each such password.
`Dissection.Proper` says that this was done well: every password is as long as can be, and no key with a password is
left in the texts between.
- `exists_proper`, `Proper.unique`: every text has one proper dissection, and no other.
- `mask_text`: masking puts the fixed text in the place of each password, and changes nothing else.
- `masking_exact`: so it is with every text, and masking it once more changes nothing.
-/
import LogRelay.Proofs.Mask.Passwords

namespace LogRelay.Mask

/-! ## Dissections -/

/-- a password, and the text behind it as far as the next key that a password follows -/
structure Find where
  password : List Char
  behind : List Char

/-- a text cut at its passwords, each of which stands behind a key -/
structure Dissection where
  front : List Char
  finds : List Find

/-- keys, each with something of a find and the text behind it -/
def textOf (pick : Find → List Char) (xs : List Find) : List Char := xs.flatMap fun x => key ++ (pick x ++ x.behind)

theorem textOf_cons (pick : Find → List Char) (x : Find) (xs : List Find) :
    textOf pick (x :: xs) = key ++ (pick x ++ (x.behind ++ textOf pick xs)) := by
  simp [textOf]

/-- a key that a password follows begins a text -/
def Opens (s : List Char) : Prop := ∃ c r, s = key ++ c :: r ∧ c ≠ '&' ∧ Text.isBlank c = false

/-- no key that a password follows begins inside `t`, where `rest` comes behind `t` -/
def Idle (t rest : List Char) : Prop := ∀ u v, t = u ++ v → v ≠ [] → ¬ Opens (v ++ rest)

/-- a password does not go on into a text: that is empty, or begins with an ampersand or a blank -/
def Stops (s : List Char) : Prop := ∀ c, s.head? = some c → c = '&' ∨ Text.isBlank c = true

/-- the passwords are as long as can be, and no key with a password is left behind them -/
def AreProper : List Find → Prop
  | [] => True
  | x :: xs =>
    (IsPassword x.password ∧ Stops (x.behind ++ textOf Find.password xs)) ∧
      Idle x.behind (textOf Find.password xs) ∧ AreProper xs

namespace Dissection

def text (d : Dissection) : List Char := d.front ++ textOf Find.password d.finds

/-- the text with the fixed text in the place of each password -/
def hiddenText (d : Dissection) : List Char := d.front ++ textOf (fun _ => hidden) d.finds

/-- the passwords are as long as can be, and no key with a password is left between them -/
def Proper (d : Dissection) : Prop := Idle d.front (textOf Find.password d.finds) ∧ AreProper d.finds

end Dissection

/-! ## Keys, passwords and what is between -/

theorem startsSecret_iff {s : List Char} : startsSecret s = true ↔ Opens s := by
  rw [startsSecret, Bool.and_eq_true, List.isPrefixOf_iff_prefix]
  constructor
  · rintro ⟨⟨r, rfl⟩, hr⟩
    rw [List.drop_left] at hr
    cases r with
    | nil => cases hr
    | cons c r => exact ⟨c, r, rfl, isSecret_iff.1 hr⟩
  · rintro ⟨c, r, rfl, hc⟩
    exact ⟨List.prefix_append _ _, by rw [List.drop_left]; exact isSecret_iff.2 hc⟩

theorem stops_iff {s : List Char} : Stops s ↔ ∀ c, s.head? = some c → isSecret c = false := by
  have hchar : ∀ c, (c = '&' ∨ Text.isBlank c = true) ↔ isSecret c = false := by
    intro c
    rw [← Bool.not_eq_true, isSecret_iff, not_and_or, not_not, Bool.not_eq_false]
  exact forall₂_congr fun c _ => hchar c

theorem Idle.tail {c : Char} {t rest : List Char} (h : Idle (c :: t) rest) : Idle t rest := by
  rintro u v rfl hv
  exact h (c :: u) v rfl hv

theorem Idle.cons {c : Char} {t rest : List Char} (h : Idle t rest) (hc : ¬ Opens (c :: (t ++ rest))) :
    Idle (c :: t) rest := by
  intro u v heq hv
  cases u with
  | nil =>
    rw [List.nil_append] at heq
    rw [← heq]
    exact hc
  | cons d u => exact h u v (List.cons.inj heq).2 hv

theorem idle_nil (rest : List Char) : Idle [] rest := by
  intro u v heq hv
  exact absurd (List.append_eq_nil_iff.1 heq.symm).2 hv

/-- a text that begins with a key and a password has a longest password there -/
theorem exists_password {s : List Char} (h : Opens s) :
    ∃ v w, s = key ++ (v ++ w) ∧ IsPassword v ∧ Stops w := by
  obtain ⟨c, r, rfl, hc⟩ := h
  have hsecret : isSecret c = true := isSecret_iff.2 hc
  refine ⟨(c :: r).takeWhile isSecret, (c :: r).dropWhile isSecret, by rw [List.takeWhile_append_dropWhile], ?_, ?_⟩
  · exact isPassword_iff.2 ⟨by simp [hsecret], List.all_takeWhile⟩
  · refine stops_iff.2 fun d hd => ?_
    have hno := List.head?_dropWhile_not isSecret (c :: r)
    rw [hd] at hno
    exact hno

/-- a password that is as long as can be is all that a scan takes for one -/
theorem takeWhile_password {v w : List Char} (hv : IsPassword v) (hw : Stops w) :
    (v ++ w).takeWhile isSecret = v ∧ (v ++ w).dropWhile isSecret = w := by
  have hrest : w.takeWhile isSecret = [] ∧ w.dropWhile isSecret = w := by
    cases w with
    | nil => exact ⟨rfl, rfl⟩
    | cons c w =>
      have hc : ¬ isSecret c = true := by simp [stops_iff.1 hw c rfl]
      exact ⟨List.takeWhile_cons_of_neg hc, List.dropWhile_cons_of_neg hc⟩
  rw [List.takeWhile_append_of_pos hv.secret, List.dropWhile_append_of_pos hv.secret, hrest.1, hrest.2, List.append_nil]
  exact ⟨rfl, rfl⟩

/-! ## There is one dissection -/

/-- every text has a proper dissection -/
theorem exists_proper (s : List Char) : ∃ d : Dissection, d.Proper ∧ d.text = s := by
  induction h : s.length using Nat.strongRecOn generalizing s with
  | _ n ih =>
    subst h
    by_cases hopens : Opens s
    · -- the text goes on behind its first password
      obtain ⟨v, w, rfl, hv, hw⟩ := exists_password hopens
      have hkey : 0 < key.length := by decide
      obtain ⟨d, ⟨hidle, hproper⟩, rfl⟩ := ih w.length (by simp only [List.length_append]; omega) w rfl
      refine ⟨⟨[], ⟨v, d.front⟩ :: d.finds⟩, ⟨idle_nil _, ⟨hv, hw⟩, hidle, hproper⟩, ?_⟩
      rw [Dissection.text, textOf_cons]
      rfl
    · cases s with
      | nil => exact ⟨⟨[], []⟩, ⟨idle_nil _, trivial⟩, rfl⟩
      | cons c s =>
        obtain ⟨d, ⟨hidle, hproper⟩, rfl⟩ := ih s.length (Nat.lt_succ_self _) s rfl
        exact ⟨⟨c :: d.front, d.finds⟩, ⟨hidle.cons hopens, hproper⟩, rfl⟩

/-- what comes behind a text between is nothing, or a key with its password -/
theorem opens_of_proper {xs : List Find} (h : AreProper xs) :
    textOf Find.password xs = [] ∨ Opens (textOf Find.password xs) := by
  cases xs with
  | nil => exact Or.inl rfl
  | cons x xs =>
    obtain ⟨⟨hpassword, -⟩, -, -⟩ := h
    obtain ⟨c, v, hv⟩ := List.exists_cons_of_ne_nil hpassword.1
    refine Or.inr ⟨c, v ++ (x.behind ++ textOf Find.password xs), ?_,
      isSecret_iff.1 (hpassword.secret c (by simp [hv]))⟩
    rw [textOf_cons, hv]
    rfl

/-- a text between ends where the next key with a password begins, so its end is the same in every proper dissection -/
theorem idle_unique {t t' rest rest' : List Char} (heq : t ++ rest = t' ++ rest') (hidle : Idle t rest)
    (hidle' : Idle t' rest') (hrest : rest = [] ∨ Opens rest) (hrest' : rest' = [] ∨ Opens rest') :
    t = t' ∧ rest = rest' := by
  have hprefix : ∀ {t t' a rest rest' : List Char}, t' = t ++ a → rest = a ++ rest' → Idle t' rest' →
      (rest = [] ∨ Opens rest) → a = [] := by
    intro t t' a rest rest' ht hr hidle hrest
    by_contra hne
    rcases hrest with hnil | hopens
    · rw [hr] at hnil
      exact hne (List.append_eq_nil_iff.1 hnil).1
    · exact hidle t a ht hne (hr ▸ hopens)
  rcases List.append_eq_append_iff.1 heq with ⟨a, ht, hr⟩ | ⟨a, ht, hr⟩
  · obtain rfl := hprefix ht hr hidle' hrest
    exact ⟨by simpa using ht.symm, by simpa using hr⟩
  · obtain rfl := hprefix ht hr hidle hrest'
    exact ⟨by simpa using ht, by simpa using hr.symm⟩

theorem areProper_unique {xs ys : List Find} (hxs : AreProper xs) (hys : AreProper ys)
    (heq : textOf Find.password xs = textOf Find.password ys) : xs = ys := by
  induction xs generalizing ys with
  | nil =>
    cases ys with
    | nil => rfl
    | cons y ys => rw [textOf_cons] at heq; cases heq
  | cons x xs ih =>
    cases ys with
    | nil => rw [textOf_cons] at heq; cases heq
    | cons y ys =>
      obtain ⟨⟨hx, hstops⟩, hidle, hxs⟩ := hxs
      obtain ⟨⟨hy, hstops'⟩, hidle', hys⟩ := hys
      rw [textOf_cons, textOf_cons] at heq
      have hrest := List.append_cancel_left heq
      obtain ⟨htake, hdrop⟩ := takeWhile_password hx hstops
      obtain ⟨htake', hdrop'⟩ := takeWhile_password hy hstops'
      have hpassword : x.password = y.password := by rw [← htake, hrest, htake']
      have hbehind : x.behind ++ textOf Find.password xs = y.behind ++ textOf Find.password ys := by
        rw [← hdrop, hrest, hdrop']
      obtain ⟨hb, htail⟩ := idle_unique hbehind hidle hidle' (opens_of_proper hxs) (opens_of_proper hys)
      obtain ⟨v, b⟩ := x
      obtain ⟨v', b'⟩ := y
      cases hpassword
      cases hb
      rw [ih hxs hys htail]

namespace Dissection

variable {d d' : Dissection}

/-- **A text has one proper dissection** -/
theorem Proper.unique (hd : d.Proper) (hd' : d'.Proper) (h : d.text = d'.text) : d = d' := by
  obtain ⟨front, finds⟩ := d
  obtain ⟨front', finds'⟩ := d'
  obtain ⟨hfront, hrest⟩ := idle_unique h hd.1 hd'.1 (opens_of_proper hd.2) (opens_of_proper hd'.2)
  have hfinds : finds = finds' := areProper_unique hd.2 hd'.2 hrest
  cases hfront
  rw [hfinds]

end Dissection

/-! ## What masking does to it -/

theorem maskFrom_idle {t rest : List Char} (h : Idle t rest) :
    maskFrom 0 false (t ++ rest) = t ++ maskFrom 0 false rest := by
  induction t with
  | nil => rfl
  | cons c t ih =>
    have hno : ¬ startsSecret (c :: (t ++ rest)) = true := by
      rw [startsSecret_iff]
      exact h [] (c :: t) rfl (List.cons_ne_nil c t)
    rw [List.cons_append, maskFrom, Bool.false_and, if_neg Bool.false_ne_true, if_neg hno, ih h.tail]
    rfl

/-- where a password stops the scan is no longer inside it -/
theorem maskFrom_stops {s : List Char} (h : Stops s) : maskFrom 0 true s = maskFrom 0 false s := by
  cases s with
  | nil => rfl
  | cons c s =>
    rw [maskFrom, maskFrom, stops_iff.1 h c rfl]
    rfl

theorem maskFrom_textOf {xs : List Find} (h : AreProper xs) :
    maskFrom 0 false (textOf Find.password xs) = textOf (fun _ => hidden) xs := by
  induction xs with
  | nil => rfl
  | cons x xs ih =>
    obtain ⟨⟨hpassword, hstops⟩, hidle, hxs⟩ := h
    calc maskFrom 0 false (textOf Find.password (x :: xs))
        = key ++ hidden ++ maskFrom 0 true (x.behind ++ textOf Find.password xs) := by
          rw [textOf_cons, maskFrom_found hpassword.1 hpassword.secret]
      _ = key ++ hidden ++ (x.behind ++ maskFrom 0 false (textOf Find.password xs)) := by
          rw [maskFrom_stops hstops, maskFrom_idle hidle]
      _ = textOf (fun _ => hidden) (x :: xs) := by
          rw [ih hxs, textOf_cons, List.append_assoc]

/-- **Masking puts the fixed text in the place of each password**, and changes nothing else -/
theorem mask_text {d : Dissection} (h : d.Proper) : mask d.text = d.hiddenText := by
  rw [mask, Dissection.text, maskFrom_idle h.1, maskFrom_textOf h.2]
  rfl

theorem isPassword_of_proper {xs : List Find} (h : AreProper xs) : ∀ x ∈ xs, IsPassword x.password := by
  induction xs with
  | nil => exact fun x hx => by cases hx
  | cons x xs ih =>
    obtain ⟨⟨hpassword, -⟩, -, hxs⟩ := h
    exact List.forall_mem_cons.2 ⟨hpassword, ih hxs⟩

/-- the fixed text may be a password itself, so a text and the same with its passwords hidden are masked alike -/
theorem mask_hiddenText {d : Dissection} (h : d.Proper) : mask d.hiddenText = mask d.text := by
  have hhidden : IsPassword hidden := by decide
  have hpasswords : ∀ x ∈ d.finds.map fun x => (⟨x.password, hidden, x.behind⟩ : Swap),
      IsPassword x.one ∧ IsPassword x.other := by
    intro x hx
    obtain ⟨y, hy, rfl⟩ := List.mem_map.1 hx
    exact ⟨isPassword_of_proper h.2 y hy, hhidden⟩
  have hswap := mask_requestWith d.front hpasswords
  rw [requestWith, requestWith, List.flatMap_map, List.flatMap_map] at hswap
  exact hswap.symm

/-! ## Main result -/

/-- **Masking is exact.** Every text has one dissection, and only one, of which the passwords are not empty, hold no
ampersand and no blank, and go on until one of these comes or the text ends, and of which no text between holds the
beginning of a key that a password follows, be it with characters that come behind that text. The masked text is that
of this dissection with the fixed text in the place of each password and all else as it was. To mask it again changes
nothing. -/
theorem masking_exact (s : List Char) :
    (∃! d : Dissection, d.Proper ∧ d.text = s) ∧
      (∀ d : Dissection, d.Proper → d.text = s → mask s = d.hiddenText) ∧ mask (mask s) = mask s := by
  obtain ⟨d, hproper, rfl⟩ := exists_proper s
  refine ⟨⟨d, ⟨hproper, rfl⟩, ?_⟩, ?_, ?_⟩
  · rintro d' ⟨hproper', htext⟩
    exact hproper'.unique hproper htext
  · intro d' hproper' htext
    rw [← htext, mask_text hproper']
  · rw [mask_text hproper, mask_hiddenText hproper, mask_text hproper]

end LogRelay.Mask
