/-
Passwords do not show.

`Alike a b` says that two texts are masked to the same text, wherever the scan stands when it reaches them. It holds
of a text and itself, survives any text put in front, and two passwords may differ (`Alike.swap`): once the key is
found, the scan passes over the whole password, however long it is and whatever it holds. No care is needed where
texts meet: an occurrence of the key that begins before a text can only see the first characters of it, and those are
the key again.
- `masked_alike`, `mask_requestWith`: requests that differ only in passwords are masked to the same text.
- `passwords_do_not_show`: so the records of accesses that differ only in this are the same, octet for octet.
-/
import Mathlib.Tactic
import LogRelay.Proofs.Registry.Move

namespace LogRelay.Mask

/-! ## The scan -/

theorem isSecret_iff {c : Char} : isSecret c = true ↔ c ≠ '&' ∧ Text.isBlank c = false := by
  simp [isSecret]

theorem isSecret_key : ∀ c ∈ key, isSecret c = true := List.all_eq_true.1 (by decide)

theorem maskFrom_secrets {v : List Char} (hv : ∀ c ∈ v, isSecret c = true) (s : List Char) :
    maskFrom 0 true (v ++ s) = maskFrom 0 true s := by
  induction v with
  | nil => rfl
  | cons c v ih =>
    have hc : isSecret c = true := hv c List.mem_cons_self
    rw [List.cons_append, maskFrom, hc]
    exact ih fun d hd => hv d (List.mem_cons_of_mem c hd)

/-- the rest of a key already found is passed over -/
theorem maskFrom_skip (b : Bool) {k : Nat} {u : List Char} (hk : k ≤ u.length) (s : List Char) :
    maskFrom k b (u ++ s) = maskFrom 0 b (u.drop k ++ s) := by
  induction u generalizing k with
  | nil =>
    rw [List.length_nil, Nat.le_zero] at hk
    rw [hk]
    rfl
  | cons c u ih =>
    cases k with
    | zero => rfl
    | succ k => exact ih (Nat.le_of_succ_le_succ hk)

/-- a scan that is inside a password, or in the rest of a key, passes over a whole key with its password -/
theorem maskFrom_inside {k : Nat} (hk : k ≤ key.length) {v : List Char} (hv : ∀ c ∈ v, isSecret c = true)
    (s : List Char) : maskFrom k true (key ++ (v ++ s)) = maskFrom 0 true s := by
  have hrest : ∀ c ∈ key.drop k, isSecret c = true := fun c hc => isSecret_key c (List.mem_of_mem_drop hc)
  rw [maskFrom_skip true hk, maskFrom_secrets hrest, maskFrom_secrets hv]

theorem startsSecret_key {v : List Char} (hne : v ≠ []) (hv : ∀ c ∈ v, isSecret c = true) (s : List Char) :
    startsSecret (key ++ (v ++ s)) = true := by
  obtain ⟨c, v, rfl⟩ := List.exists_cons_of_ne_nil hne
  have hkey : key.isPrefixOf (key ++ (c :: v ++ s)) = true :=
    List.isPrefixOf_iff_prefix.2 (List.prefix_append _ _)
  rw [startsSecret, hkey, List.drop_left]
  exact hv c List.mem_cons_self

/-- a scan that finds a key with its password writes the key and the fixed text -/
theorem maskFrom_found {v : List Char} (hne : v ≠ []) (hv : ∀ c ∈ v, isSecret c = true) (s : List Char) :
    maskFrom 0 false (key ++ (v ++ s)) = key ++ hidden ++ maskFrom 0 true s := by
  have hfound := startsSecret_key hne hv s
  have hrest : maskFrom (key.length - 1) true (key.tail ++ (v ++ s)) = maskFrom 0 true s := by
    rw [maskFrom_skip true (by decide)]
    exact maskFrom_secrets hv s
  have hkey : key = 'p' :: key.tail := by decide
  rw [hkey, List.cons_append] at hfound ⊢
  rw [maskFrom, Bool.false_and, if_neg Bool.false_ne_true, if_pos hfound, ← hkey, hrest]

/-- whether a key with a password begins in a text is seen from its first characters -/
theorem startsSecret_take (s : List Char) : startsSecret (s.take (key.length + 1)) = startsSecret s := by
  have hkey : key.isPrefixOf (s.take (key.length + 1)) = key.isPrefixOf s := by
    rw [Bool.eq_iff_iff, List.isPrefixOf_iff_prefix, List.isPrefixOf_iff_prefix, List.prefix_take_iff]
    exact and_iff_left (Nat.le_succ _)
  rw [startsSecret, startsSecret, hkey, List.drop_take, Nat.add_sub_cancel_left]
  cases s.drop key.length <;> rfl

/-! ## Texts that are masked alike -/

/-- two texts begin with the same characters, as many as a key has, and are masked to the same text whether the scan has
`k` more characters of a key to pass over, is inside a password, or is neither -/
def Alike (a b : List Char) : Prop :=
  a.take key.length = b.take key.length ∧
    ∀ k inside, k < key.length → (0 < k → inside = true) → maskFrom k inside a = maskFrom k inside b

theorem Alike.refl (a : List Char) : Alike a a := ⟨rfl, fun _ _ _ _ => rfl⟩

theorem Alike.cons {a b : List Char} (h : Alike a b) (c : Char) : Alike (c :: a) (c :: b) := by
  obtain ⟨htake, hmask⟩ := h
  refine ⟨?_, ?_⟩
  · have hlen : key.length = (key.length - 1) + 1 := by decide
    have hle : key.length - 1 ≤ key.length := Nat.sub_le _ _
    have htake' := congrArg (List.take (key.length - 1)) htake
    rw [List.take_take, List.take_take, Nat.min_eq_left hle] at htake'
    rw [hlen, List.take_succ_cons, List.take_succ_cons, htake']
  · intro k inside hk hin
    cases k with
    | succ k => exact hmask k inside (Nat.lt_of_succ_lt hk) fun _ => hin (Nat.succ_pos k)
    | zero =>
      have hstarts : startsSecret (c :: a) = startsSecret (c :: b) := by
        rw [← startsSecret_take (c :: a), ← startsSecret_take (c :: b), List.take_succ_cons, List.take_succ_cons, htake]
      rw [maskFrom, maskFrom, hstarts, hmask 0 true (by decide) fun _ => rfl,
        hmask (key.length - 1) true (by decide) fun _ => rfl, hmask 0 false (by decide) fun h => absurd h (by decide)]

theorem Alike.append {a b : List Char} (h : Alike a b) (t : List Char) : Alike (t ++ a) (t ++ b) := by
  induction t with
  | nil => exact h
  | cons c t ih => exact ih.cons c

/-- text that may be a password: not empty, without ampersand and blank -/
def IsPassword (v : List Char) : Prop := v ≠ [] ∧ '&' ∉ v ∧ ∀ c ∈ v, Text.isBlank c = false

theorem isPassword_iff {v : List Char} : IsPassword v ↔ v ≠ [] ∧ v.all isSecret = true := by
  rw [List.all_eq_true]
  refine and_congr_right fun _ => ⟨?_, ?_⟩
  · rintro ⟨hamp, hblank⟩ c hc
    refine isSecret_iff.2 ⟨?_, hblank c hc⟩
    rintro rfl
    exact hamp hc
  · intro h
    exact ⟨fun hamp => (isSecret_iff.1 (h '&' hamp)).1 rfl, fun c hc => (isSecret_iff.1 (h c hc)).2⟩

instance (v : List Char) : Decidable (IsPassword v) := decidable_of_iff' _ isPassword_iff

theorem IsPassword.secret {v : List Char} (h : IsPassword v) : ∀ c ∈ v, isSecret c = true :=
  List.all_eq_true.1 (isPassword_iff.1 h).2

/-- **One password is as good as another** -/
theorem Alike.swap {a b v w : List Char} (h : Alike a b) (hv : IsPassword v) (hw : IsPassword w) :
    Alike (key ++ (v ++ a)) (key ++ (w ++ b)) := by
  have hab : maskFrom 0 true a = maskFrom 0 true b := h.2 0 true (by decide) fun _ => rfl
  refine ⟨by rw [List.take_left, List.take_left], ?_⟩
  intro k inside hk hin
  cases inside with
  | true => rw [maskFrom_inside hk.le hv.secret, maskFrom_inside hk.le hw.secret, hab]
  | false =>
    have hk0 : k = 0 := by
      by_contra hne
      exact absurd (hin (Nat.pos_of_ne_zero hne)) (by decide)
    rw [hk0, maskFrom_found hv.1 hv.secret, maskFrom_found hw.1 hw.secret, hab]

/-! ## Requests -/

/-- a password, another in its place, and the text behind it -/
structure Swap where
  one : List Char
  other : List Char
  behind : List Char

/-- a request: a text, and one password of each swap with its key in front and the text behind it -/
def requestWith (pick : Swap → List Char) (front : List Char) (xs : List Swap) : List Char :=
  front ++ xs.flatMap fun x => key ++ (pick x ++ x.behind)

theorem masked_alike (front : List Char) {xs : List Swap} (hxs : ∀ x ∈ xs, IsPassword x.one ∧ IsPassword x.other) :
    Alike (requestWith Swap.one front xs) (requestWith Swap.other front xs) := by
  refine Alike.append ?_ front
  induction xs with
  | nil => exact Alike.refl []
  | cons x xs ih =>
    have hrest := (ih fun y hy => hxs y (List.mem_cons_of_mem x hy)).append x.behind
    obtain ⟨hone, hother⟩ := hxs x List.mem_cons_self
    have hswap := hrest.swap hone hother
    simpa only [List.flatMap_cons, List.append_assoc] using hswap

theorem mask_requestWith (front : List Char) {xs : List Swap} (hxs : ∀ x ∈ xs, IsPassword x.one ∧ IsPassword x.other) :
    mask (requestWith Swap.one front xs) = mask (requestWith Swap.other front xs) :=
  (masked_alike front hxs).2 0 false (by decide) fun h => absurd h (by decide)

end LogRelay.Mask

namespace LogRelay

open Mask

/-! ## Accesses -/

def Operation.withRequest (o : Operation) (request : List Char) : Operation :=
  { o with request := String.ofList request }

/-- the event of an access shows its request only as it is masked -/
theorem event_withRequest {o : Operation} (ho : o.isAccess = true) {a b : List Char} (h : mask a = mask b)
    (now : Timestamp) : (o.withRequest a).event now = (o.withRequest b).event now := by
  have htext : (o.withRequest a).requestText = (o.withRequest b).requestText := by
    simp only [Operation.requestText, Operation.withRequest, ho, if_true, String.toList_ofList, h]
  have hmessage : (o.withRequest a).message = (o.withRequest b).message := by
    simp only [Operation.message, htext]
    rfl
  simp only [Operation.event, hmessage]
  rfl

/-- the record of an access at a moment, as it is handed in; who called it does not matter -/
def Operation.accessDraft (o : Operation) (l : Layout) (now : Timestamp) : Draft :=
  .appended (Record.parts l .info (o.event now) [])

theorem collect_access {o : Operation} (ho : o.isAccess = true) (l : Logger) (t : Transport) (now : Timestamp)
    (stack : List Frame) : l.collect t o now stack = t.submit (o.accessDraft l.layout now) := by
  have hinfo : o.severity = .info := by rw [Operation.severity, if_pos ho]
  simp only [Logger.collect, ho, hinfo]
  rfl

/-- what a logger does with an operation is what its transport is left with -/
theorem log_operation {r : Registry} {i n : Nat} {l : Logger} {t : Transport} (hl : r.loggers[i]? = some l)
    (ht : r.transportOf? i = some (n, t)) {o : Operation} {now : Timestamp} {stack : List Frame} {d : Draft}
    (hd : l.collect t o now stack = t.submit d) :
    r.log i (.operation o) now stack = ((t.submit d).1, r.setTransport n (t.submit d).2) := by
  simp only [Registry.log, hl, ht, Logger.call, hd]

theorem log_operation_congr {o o' : Operation} {now : Timestamp} {stack stack' : List Frame}
    (h : ∀ (l : Logger) (t : Transport), l.collect t o now stack = l.collect t o' now stack') (r : Registry) (i : Nat) :
    r.log i (.operation o) now stack = r.log i (.operation o') now stack' := by
  simp only [Registry.log, Logger.call, h]

/-- **Passwords do not show.** Take two accesses that are the same but for the passwords in their requests. Their
requests are masked to the same text. Whatever the logger, the caller and the threshold, both hand in a record, and it
is the same one: the transport of the logger is given it, and nothing else is done. So handing in the one or the
other, at the same moment, has the same answer and the same effect. What stands in front of the first password and
behind each of them does not matter. -/
theorem passwords_do_not_show (o : Operation) (ho : o.isAccess = true) (front : List Char) (xs : List Swap)
    (hxs : ∀ x ∈ xs, IsPassword x.one ∧ IsPassword x.other) :
    let one := o.withRequest (requestWith Swap.one front xs)
    let other := o.withRequest (requestWith Swap.other front xs)
    mask (requestWith Swap.one front xs) = mask (requestWith Swap.other front xs) ∧
      (∀ (l : Logger) (now : Timestamp) (stack stack' : List Frame), ∃ d : Draft,
        (∀ t, l.collect t one now stack = t.submit d ∧ l.collect t other now stack' = t.submit d) ∧
        ∀ (r : Registry) (i n : Nat) (t : Transport), r.loggers[i]? = some l → r.transportOf? i = some (n, t) →
          r.log i (.operation one) now stack = ((t.submit d).1, r.setTransport n (t.submit d).2) ∧
          r.log i (.operation other) now stack' = ((t.submit d).1, r.setTransport n (t.submit d).2)) ∧
      ∀ (r : Registry) (i : Nat) (now : Timestamp) (stack stack' : List Frame),
        r.log i (.operation one) now stack = r.log i (.operation other) now stack' := by
  intro one other
  have hmask := mask_requestWith front hxs
  have hevent : ∀ now, one.event now = other.event now := event_withRequest ho hmask
  have haccess : one.isAccess = true := ho
  have haccess' : other.isAccess = true := ho
  have hother : ∀ (l : Logger) (t : Transport) (now : Timestamp) (stack : List Frame),
      l.collect t other now stack = t.submit (other.accessDraft l.layout now) := collect_access haccess'
  have hone : ∀ (l : Logger) (t : Transport) (now : Timestamp) (stack : List Frame),
      l.collect t one now stack = t.submit (other.accessDraft l.layout now) := by
    intro l t now stack
    have hsame : one.accessDraft l.layout now = other.accessDraft l.layout now := by
      rw [Operation.accessDraft, hevent, Operation.accessDraft]
    calc l.collect t one now stack = t.submit (one.accessDraft l.layout now) := collect_access haccess l t now stack
      _ = t.submit (other.accessDraft l.layout now) := congrArg t.submit hsame
  refine ⟨hmask, ?_, ?_⟩
  · intro l now stack stack'
    refine ⟨other.accessDraft l.layout now, ?_, ?_⟩
    · intro t
      exact ⟨hone l t now stack, hother l t now stack'⟩
    · intro r i n t hl ht
      exact ⟨log_operation hl ht (hone l t now stack), log_operation hl ht (hother l t now stack')⟩
  · intro r i now stack stack'
    exact log_operation_congr (fun l t => (hone l t now stack).trans (hother l t now stack').symm) r i

/-- two passwords in a request, each changed for one of another length, and one of them for a text that holds the key -/
def smallSwaps : List Swap :=
  [⟨"a".toList, "password=b".toList, "&id=1&".toList⟩, ⟨"secret".toList, "s".toList, []⟩]

/-- the one logger there is hands the same record to its transport, whichever passwords the request holds -/
theorem passwords_do_not_show_small :
    let o : Operation := { name := "login", isAccess := true }
    let one := o.withRequest (requestWith Swap.one "pass".toList smallSwaps)
    let other := o.withRequest (requestWith Swap.other "pass".toList smallSwaps)
    let r := Registry.relay
    let t := Transport.start (.ofConfig {})
    o.isAccess = true ∧ (∀ x ∈ smallSwaps, IsPassword x.one ∧ IsPassword x.other) ∧
      one.request = "passpassword=a&id=1&password=secret" ∧ other.request = "passpassword=password=b&id=1&password=s" ∧
      mask (requestWith Swap.one "pass".toList smallSwaps) = mask (requestWith Swap.other "pass".toList smallSwaps) ∧
      (∃ d : Draft, (Logger.ofConfig {} "relay" 0 none).collect t one ⟨0, 0⟩ [] = t.submit d ∧
        r.log 0 (.operation one) ⟨0, 0⟩ [] = ((t.submit d).1, r.setTransport 0 (t.submit d).2) ∧
        r.log 0 (.operation other) ⟨0, 0⟩ [] = ((t.submit d).1, r.setTransport 0 (t.submit d).2)) ∧
      (r.setLevel 0 .emergency).log 0 (.operation one) ⟨0, 0⟩ [] =
        (r.setLevel 0 .emergency).log 0 (.operation other) ⟨0, 0⟩ [] := by
  intro o one other r t
  have ho : o.isAccess = true := rfl
  have hxs : ∀ x ∈ smallSwaps, IsPassword x.one ∧ IsPassword x.other := by decide
  obtain ⟨hmask, hdraft, hlog⟩ := passwords_do_not_show o ho "pass".toList smallSwaps hxs
  obtain ⟨d, hcollect, hregistry⟩ := hdraft (.ofConfig {} "relay" 0 none) ⟨0, 0⟩ [] []
  exact ⟨ho, hxs, by decide, by decide, hmask, ⟨d, (hcollect t).1, hregistry r 0 0 t rfl rfl⟩, hlog _ 0 ⟨0, 0⟩ [] []⟩

end LogRelay
