/-
The module of a symbol, from what the symbol is printed of.

A function is printed as the segments of its path and its name, with generic arguments, closures and a hash behind
them where it has any (`FunctionSymbol`). A method of a trait is printed as the path of a type, with generic arguments
if it has any, and the trait in brackets, and the method behind them (`MethodSymbol`). Generic arguments, traits and
methods may hold anything: brackets, separators, and what looks like a hash.
- `withoutHash_append`, `withoutHash_eq_self`: the hash of a symbol is cut off, and nothing else is.
- `FunctionSymbol.exists_path`, `MethodSymbol.exists_path`: of what is left, the path is read, and behind it only
  pieces that name nothing.
- `component_printed`: the module is made of the segments of the path that name no type.
-/
import Mathlib.Tactic
import LogRelay.Proofs.Text.Split
import LogRelay.Trace

namespace LogRelay.Trace

open Text

/-! ## Printed symbols -/

/-- a character that may stand in a segment of a path -/
def isPlain (c : Char) : Bool := c != ':' && c != '<' && c != '>' && c != '\x7b' && c != ' '

/-- a segment of a path -/
structure Segment where
  text : List Char
  text_ne_nil : text ≠ []
  all_isPlain : text.all isPlain = true

/-- generic arguments, with or without a separator before them -/
structure Generics where
  separated : Bool
  arguments : List Char

/-- a closure, told by what stands behind its brace -/
structure Closure where
  rest : List Char
  colon_not_mem : ':' ∉ rest
  angle_not_mem : '<' ∉ rest

def isHexDigit (c : Char) : Bool := c.isDigit || ('a' ≤ c && c ≤ 'f') || ('A' ≤ c && c ≤ 'F')

/-- the sixteen digits of a hash -/
structure Hash where
  digits : List Char
  length_digits : digits.length = 16
  all_isHexDigit : digits.all isHexDigit = true

/-- texts with a separator between each two -/
def joined (texts : List (List Char)) : List Char := "::".toList.intercalate texts

/-- what stands before the bracket of generic arguments -/
def Generics.lead (g : Generics) : List Char := if g.separated then "::".toList else []

def Generics.text (g : Generics) : List Char := g.lead ++ ('<' :: (g.arguments ++ ['>']))

def Closure.text (c : Closure) : List Char := '\x7b' :: c.rest

def Hash.text (h : Hash) : List Char := "::h".toList ++ h.digits

/-- the symbol of a function, or of a closure in one -/
structure FunctionSymbol where
  segments : List Segment
  function : Segment
  generics : Option Generics
  closures : List Closure
  hash : Option Hash
  segments_ne_nil : segments ≠ []
  /-- the function is not called what a hash looks like -/
  function_ne_hash : ∀ h : Hash, function.text ≠ 'h' :: h.digits

namespace FunctionSymbol

/-- the segments and the function -/
def names (s : FunctionSymbol) : List (List Char) := (s.segments ++ [s.function]).map Segment.text

/-- the symbol without its hash -/
def body (s : FunctionSymbol) : List Char :=
  joined s.names ++ (s.generics.elim [] Generics.text ++ s.closures.flatMap fun c => "::".toList ++ c.text)

def text (s : FunctionSymbol) : List Char := s.body ++ s.hash.elim [] Hash.text

end FunctionSymbol

/-- the symbol of a method of a trait; the method comes with all that stands behind it -/
structure MethodSymbol where
  segments : List Segment
  generics : Option Generics
  trait : List Char
  method : List Char
  segments_ne_nil : segments ≠ []

namespace MethodSymbol

def type (m : MethodSymbol) : List Char := joined (m.segments.map Segment.text) ++ m.generics.elim [] Generics.text

def qualifier (m : MethodSymbol) : List Char := m.type ++ (" as ".toList ++ m.trait)

def text (m : MethodSymbol) : List Char := '<' :: m.qualifier ++ ('>' :: ("::".toList ++ m.method))

end MethodSymbol

/-- the module of a path: its segments that do not begin with an upper-case letter -/
def moduleOf (segments : List Segment) : List Char :=
  joined ((segments.map Segment.text).filter fun s => !s.head?.any Char.isUpper)

/-! ## Paths -/

theorem Segment.not_mem (s : Segment) {m : Char} (hm : isPlain m = false) : m ∉ s.text := by
  intro hmem
  rw [List.all_eq_true.1 s.all_isPlain m hmem] at hm
  cases hm

theorem not_mem_names {segments : List Segment} {m : Char} (hm : isPlain m = false) :
    ∀ t ∈ segments.map Segment.text, m ∉ t := by
  intro t ht
  obtain ⟨s, -, rfl⟩ := List.mem_map.1 ht
  exact s.not_mem hm

theorem joined_cons (p : List Char) (ps : List (List Char)) :
    joined (p :: ps) = p ++ ps.flatMap fun q => "::".toList ++ q := by
  induction ps generalizing p with
  | nil => simp [joined]
  | cons q qs ih =>
    have hrest : "::".toList.intercalate (q :: qs) = q ++ qs.flatMap fun q => "::".toList ++ q := ih q
    rw [joined, List.intercalate_cons_cons, hrest, List.flatMap_cons, List.append_assoc, List.append_assoc]

theorem joined_append {ps : List (List Char)} (hne : ps ≠ []) (qs : List (List Char)) :
    joined (ps ++ qs) = joined ps ++ qs.flatMap fun q => "::".toList ++ q := by
  obtain ⟨p, ps, rfl⟩ := List.exists_cons_of_ne_nil hne
  rw [List.cons_append, joined_cons, joined_cons, List.flatMap_append, List.append_assoc]

/-- no character comes into a path with the separators but the colon -/
theorem not_mem_joined {ps : List (List Char)} {m : Char} (hm : m ≠ ':') (h : ∀ p ∈ ps, m ∉ p) : m ∉ joined ps := by
  cases ps with
  | nil => exact List.not_mem_nil
  | cons p ps =>
    rw [joined_cons]
    intro hmem
    rcases List.mem_append.1 hmem with hp | hps
    · exact h p List.mem_cons_self hp
    · obtain ⟨q, hq, hmem⟩ := List.mem_flatMap.1 hps
      rcases List.mem_append.1 hmem with hsep | hmem
      · exact hm (by simpa using hsep)
      · exact h q (List.mem_cons_of_mem p hq) hmem

theorem split_joined {ps : List (List Char)} (hne : ps ≠ []) (h : ∀ p ∈ ps, ':' ∉ p) :
    split "::".toList (joined ps) = ps :=
  split_intercalate (by decide) hne fun p hp => clear_of_not_mem rfl (h p hp)

/-! ## The hash -/

theorem Hash.not_mem (h : Hash) {m : Char} (hm : isHexDigit m = false) : m ∉ h.digits := by
  intro hmem
  rw [List.all_eq_true.1 h.all_isHexDigit m hmem] at hm
  cases hm

theorem Hash.digits_ne_nil (h : Hash) : h.digits ≠ [] := by
  intro hnil
  have hlength := h.length_digits
  rw [hnil] at hlength
  cases hlength

theorem Hash.colon_not_mem (h : Hash) : ':' ∉ 'h' :: h.digits := by
  simp [h.not_mem (m := ':') rfl]

theorem withoutHash_append (a : List Char) (h : Hash) : withoutHash (a ++ h.text) = a := by
  -- behind the first colon of a hash there is one more colon only
  have hlast : ¬ ':' :: [':', 'h'] <:+: [':', 'h'] ++ h.digits := by
    intro hbehind
    rcases List.infix_cons_iff.1 hbehind with hprefix | hbehind
    · simp [List.cons_prefix_cons] at hprefix
    · exact h.colon_not_mem (hbehind.subset List.mem_cons_self)
  have hcut : breakLast? "::h".toList (a ++ h.text) = some (a, h.digits) := breakLast?_sep_append hlast a
  have hdigits : (h.digits.all fun c => c.isDigit || ('a' ≤ c && c ≤ 'f') || ('A' ≤ c && c ≤ 'F')) = true :=
    h.all_isHexDigit
  simp only [withoutHash, hcut, h.length_digits, hdigits, decide_true, Bool.and_self, if_true]

/-- a symbol that does not end in a hash is left as it is -/
theorem withoutHash_eq_self {s : List Char} (hs : ∀ (a : List Char) (h : Hash), s ≠ a ++ h.text) :
    withoutHash s = s := by
  rw [withoutHash]
  cases hcut : breakLast? "::h".toList s with
  | none => rfl
  | some p =>
    refine if_neg fun hcond => ?_
    obtain ⟨hlength, hdigits⟩ := Bool.and_eq_true _ _ ▸ hcond
    exact hs p.1 ⟨p.2, of_decide_eq_true hlength, hdigits⟩ (eq_of_breakLast? hcut)

/-- what stands behind the last colon of a symbol that ends in a hash -/
theorem eq_of_append_hash {x t a : List Char} {h : Hash} (ht : ':' ∉ t) (heq : x ++ ':' :: t = a ++ h.text) :
    t = 'h' :: h.digits := by
  have hhash : a ++ h.text = (a ++ [':']) ++ ':' :: ('h' :: h.digits) := by simp [Hash.text]
  have hleft := breakLast?_append ht x
  rw [heq, hhash, breakLast?_append h.colon_not_mem] at hleft
  exact (Prod.mk.inj (Option.some.inj hleft)).2.symm

namespace FunctionSymbol

variable (s : FunctionSymbol)

theorem names_ne_nil : s.names ≠ [] := by simp [names]

theorem body_ne_hash (a : List Char) (h : Hash) : s.body ≠ a ++ h.text := by
  intro heq
  rcases List.eq_nil_or_concat s.closures with hnone | ⟨cs, c, hlast⟩
  · cases hgenerics : s.generics with
    | none =>
      have hbody : s.body = (joined (s.segments.map Segment.text) ++ [':']) ++ ':' :: s.function.text := by
        have hne : s.segments.map Segment.text ≠ [] := by simpa using s.segments_ne_nil
        rw [body, hnone, hgenerics, names, List.map_append, joined_append hne]
        simp
      exact s.function_ne_hash h (eq_of_append_hash (s.function.not_mem rfl) (hbody ▸ heq))
    | some g =>
      have hbody : s.body = (joined s.names ++ (g.lead ++ '<' :: g.arguments)) ++ ['>'] := by
        simp [body, hnone, hgenerics, Generics.text]
      have hend : (a ++ h.text).getLast? = some '>' := by rw [← heq, hbody, List.getLast?_concat]
      rw [Hash.text, ← List.append_assoc, List.getLast?_append_of_ne_nil _ h.digits_ne_nil] at hend
      exact h.not_mem rfl (List.mem_of_getLast? hend)
  · have hbody : ∃ x, s.body = x ++ ':' :: c.text := by
      rw [body, hlast]
      exact ⟨joined s.names ++ (s.generics.elim [] Generics.text ++ cs.flatMap fun c => "::".toList ++ c.text) ++ [':'],
        by simp⟩
    obtain ⟨x, hx⟩ := hbody
    have hcolon : ':' ∉ c.text := by simp [Closure.text, c.colon_not_mem]
    cases eq_of_append_hash hcolon (hx ▸ heq)

theorem withoutHash_text : withoutHash s.text = s.body := by
  rw [text]
  cases s.hash with
  | none =>
    rw [Option.elim_none, List.append_nil]
    exact withoutHash_eq_self s.body_ne_hash
  | some h => exact withoutHash_append s.body h

end FunctionSymbol

/-- a hash holds no closing bracket, so it begins behind each one there is -/
theorem exists_of_append_hash {x y a : List Char} {h : Hash} (heq : x ++ '>' :: y = a ++ h.text) :
    ∃ z, a = x ++ '>' :: z := by
  have hangle : '>' ∉ h.text := by simp [Hash.text, h.not_mem (m := '>') rfl]
  rcases append_eq_append_cons heq.symm with ⟨z, ha, -⟩ | ⟨z, -, hz⟩
  · exact ⟨z, ha⟩
  · exact absurd (hz ▸ List.mem_append_right z List.mem_cons_self) hangle

theorem MethodSymbol.exists_withoutHash (m : MethodSymbol) :
    ∃ rest, withoutHash m.text = '<' :: m.qualifier ++ '>' :: rest := by
  by_cases hends : ∃ (a : List Char) (h : Hash), m.text = a ++ h.text
  · obtain ⟨a, h, heq⟩ := hends
    rw [heq, withoutHash_append]
    exact exists_of_append_hash heq
  · rw [withoutHash_eq_self fun a h heq => hends ⟨a, h, heq⟩]
    exact ⟨_, rfl⟩

/-! ## The path -/

/-- pieces that name nothing -/
def Silent (ts : List (List Char)) : Prop := ∀ t ∈ ts, isNamed t = false ∧ ':' ∉ t

theorem Generics.exists_lead (g : Generics) {ps : List (List Char)} (hne : ps ≠ []) :
    ∃ extra, joined ps ++ g.lead = joined (ps ++ extra) ∧ Silent extra := by
  cases hs : g.separated with
  | true =>
    refine ⟨[[]], by rw [joined_append hne]; simp [lead, hs], ?_⟩
    intro t ht
    rw [List.mem_singleton.1 ht]
    exact ⟨rfl, List.not_mem_nil⟩
  | false => exact ⟨[], by simp [lead, hs], fun _ h => absurd h List.not_mem_nil⟩

theorem Generics.not_mem_lead (g : Generics) {m : Char} (hm : m ≠ ':') : m ∉ g.lead := by
  rw [lead]
  split_ifs <;> simp [hm]

/-- a symbol that does not begin with a bracket has its path up to the first one -/
theorem path_of_unqualified {symbol : List Char} (h : (withoutHash symbol).head? ≠ some '<') :
    path symbol = (withoutHash symbol).takeWhile fun c => c != '<' := by
  rw [path]
  split
  · next inner hinner => rw [hinner] at h; exact absurd rfl h
  · exact breakAt?_mark '<' _

theorem path_of_qualified {symbol inner a b : List Char} (h : withoutHash symbol = '<' :: inner)
    (hcut : breakAt? " as ".toList inner = some (a, b)) : path symbol = a.takeWhile fun c => c != '<' := by
  rw [path, h]
  simp only [upTo?, hcut, Option.map_some, Option.some_or, Option.getD_some]
  exact breakAt?_mark '<' a

theorem joined_ne_nil {segments : List Segment} (hne : segments ≠ []) : joined (segments.map Segment.text) ≠ [] := by
  obtain ⟨s, ss, rfl⟩ := List.exists_cons_of_ne_nil hne
  rw [List.map_cons, joined_cons]
  exact List.append_ne_nil_of_left_ne_nil s.text_ne_nil _

namespace FunctionSymbol

variable (s : FunctionSymbol)

theorem angle_not_mem : '<' ∉ joined s.names := not_mem_joined (by decide) (not_mem_names rfl)

theorem head_body : s.body.head? ≠ some '<' := by
  have hne : joined s.names ≠ [] := joined_ne_nil (by simp)
  rw [body, List.head?_append_of_ne_nil _ hne]
  exact fun hhead => s.angle_not_mem (List.mem_of_head? hhead)

theorem exists_path : ∃ extra, path s.text = joined (s.names ++ extra) ∧ Silent extra := by
  have hne : s.names ≠ [] := s.names_ne_nil
  rw [path_of_unqualified (by rw [s.withoutHash_text]; exact s.head_body), s.withoutHash_text]
  cases hgenerics : s.generics with
  | none =>
    have hbody : s.body = joined (s.names ++ s.closures.map Closure.text) := by
      rw [joined_append hne, List.flatMap_map, body, hgenerics, Option.elim_none, List.nil_append]
    refine ⟨s.closures.map Closure.text, ?_, ?_⟩
    · have hangle : '<' ∉ joined (s.names ++ s.closures.map Closure.text) := by
        refine not_mem_joined (by decide) fun t ht => ?_
        rcases List.mem_append.1 ht with ht | ht
        · exact not_mem_names rfl t ht
        · obtain ⟨c, -, rfl⟩ := List.mem_map.1 ht
          simp [Closure.text, c.angle_not_mem]
      rw [hbody]
      exact takeWhile_eq_self hangle
    · intro t ht
      obtain ⟨c, -, rfl⟩ := List.mem_map.1 ht
      exact ⟨rfl, by simp [Closure.text, c.colon_not_mem]⟩
  | some g =>
    obtain ⟨extra, hlead, hsilent⟩ := g.exists_lead hne
    have hbody : ∃ r, s.body = (joined s.names ++ g.lead) ++ '<' :: r := by
      rw [body, hgenerics, Option.elim_some, Generics.text]
      exact ⟨_, by simp only [List.append_assoc, List.cons_append]; rfl⟩
    obtain ⟨r, hr⟩ := hbody
    have hangle : '<' ∉ joined s.names ++ g.lead := by
      simp [s.angle_not_mem, g.not_mem_lead (m := '<') (by decide)]
    exact ⟨extra, by rw [hr, takeWhile_append hangle, hlead], hsilent⟩

end FunctionSymbol

/-- behind a bracket the trait may be found too early, among generic arguments, but it is found -/
theorem exists_breakAt?_open {front r : List Char} (h : ' ' ∉ front) (hr : " as ".toList <:+: r) :
    ∃ a b, breakAt? " as ".toList (front ++ '<' :: r) = some (front ++ '<' :: a, b) := by
  obtain ⟨p, hp⟩ := Option.isSome_iff_exists.1 (isSome_breakAt? hr)
  have hopen : ' ' ∉ front ++ ['<'] := by simp [h]
  refine ⟨p.1, p.2, ?_⟩
  rw [List.append_cons, breakAt?_skip rfl hopen, hp, Option.map_some, ← List.append_cons]

theorem MethodSymbol.exists_path (m : MethodSymbol) :
    ∃ extra, path m.text = joined (m.segments.map Segment.text ++ extra) ∧ Silent extra := by
  have hne : m.segments.map Segment.text ≠ [] := by simpa using m.segments_ne_nil
  have hangle : '<' ∉ joined (m.segments.map Segment.text) := not_mem_joined (by decide) (not_mem_names rfl)
  have hspace : ' ' ∉ joined (m.segments.map Segment.text) := not_mem_joined (by decide) (not_mem_names rfl)
  obtain ⟨rest, hrest⟩ := m.exists_withoutHash
  cases hgenerics : m.generics with
  | none =>
    have hcut : breakAt? " as ".toList (m.qualifier ++ '>' :: rest) =
        some (joined (m.segments.map Segment.text), m.trait ++ '>' :: rest) := by
      rw [qualifier, type, hgenerics, Option.elim_none, List.append_nil, List.append_assoc, List.append_assoc]
      exact breakAt?_append (by decide) (clear_of_not_mem rfl hspace) _
    refine ⟨[], ?_, fun _ h => absurd h List.not_mem_nil⟩
    rw [path_of_qualified hrest hcut, takeWhile_eq_self hangle, List.append_nil]
  | some g =>
    obtain ⟨extra, hlead, hsilent⟩ := g.exists_lead hne
    have hangle' : '<' ∉ joined (m.segments.map Segment.text) ++ g.lead := by
      simp [hangle, g.not_mem_lead (m := '<') (by decide)]
    have hspace' : ' ' ∉ joined (m.segments.map Segment.text) ++ g.lead := by
      simp [hspace, g.not_mem_lead (m := ' ') (by decide)]
    have hinner : m.qualifier ++ '>' :: rest = (joined (m.segments.map Segment.text) ++ g.lead) ++
        '<' :: (g.arguments ++ '>' :: (" as ".toList ++ (m.trait ++ '>' :: rest))) := by
      simp only [qualifier, type, hgenerics, Option.elim_some, Generics.text, List.append_assoc, List.cons_append,
        List.nil_append]
    obtain ⟨a, b, hcut⟩ := exists_breakAt?_open hspace'
      (r := g.arguments ++ '>' :: (" as ".toList ++ (m.trait ++ '>' :: rest)))
      ⟨g.arguments ++ ['>'], m.trait ++ '>' :: rest, by simp⟩
    rw [← hinner] at hcut
    exact ⟨extra, by rw [path_of_qualified hrest hcut, takeWhile_append hangle', hlead], hsilent⟩

/-! ## The module -/

theorem isNamed_of_mem {segments : List Segment} : ∀ t ∈ segments.map Segment.text, isNamed t = true ∧ ':' ∉ t := by
  intro t ht
  obtain ⟨s, -, rfl⟩ := List.mem_map.1 ht
  refine ⟨?_, s.not_mem rfl⟩
  obtain ⟨c, r, hc⟩ := List.exists_cons_of_ne_nil s.text_ne_nil
  have hbrace : '\x7b' ∉ s.text := s.not_mem rfl
  rw [hc] at hbrace ⊢
  exact bne_iff_ne.2 (List.ne_of_not_mem_cons hbrace).symm

theorem isType_eq (s : List Char) : isType s = s.head?.any Char.isUpper := by
  cases s with
  | nil => rfl
  | cons c s =>
    have hupper : c.isUpper = decide ('A' ≤ c ∧ c ≤ 'Z') := rfl
    rw [List.head?_cons, Option.any_some, hupper, Bool.decide_and]
    rfl

/-- of a path the names are left, and nothing of what stands behind them -/
theorem filter_isNamed {symbol : List Char} {names extra : List (List Char)}
    (hpath : path symbol = joined (names ++ extra))
    (hne : names ≠ []) (hnames : ∀ t ∈ names, isNamed t = true ∧ ':' ∉ t) (hsilent : Silent extra) :
    (split "::".toList (path symbol)).filter isNamed = names := by
  have hcolon : ∀ t ∈ names ++ extra, ':' ∉ t := by
    intro t ht
    rcases List.mem_append.1 ht with ht | ht
    · exact (hnames t ht).2
    · exact (hsilent t ht).2
  have hkept : names.filter isNamed = names := List.filter_eq_self.2 fun t ht => (hnames t ht).1
  have hgone : extra.filter isNamed = [] := by
    rw [List.filter_eq_nil_iff]
    intro t ht
    rw [(hsilent t ht).1]
    exact Bool.false_ne_true
  rw [hpath, split_joined (List.append_ne_nil_of_left_ne_nil hne _) hcolon, List.filter_append, hkept,
    hgone, List.append_nil]

theorem moduleOf_eq (segments : List Segment) :
    "::".toList.intercalate ((segments.map Segment.text).filter fun t => !isType t) = moduleOf segments := by
  simp only [isType_eq]
  rfl

theorem component_function (s : FunctionSymbol) : component s.text = moduleOf s.segments := by
  obtain ⟨extra, hpath, hsilent⟩ := s.exists_path
  have hnamed : (split "::".toList (path s.text)).filter isNamed = s.names :=
    filter_isNamed hpath s.names_ne_nil isNamed_of_mem hsilent
  have hqualified : isQualified s.text = false := by
    rw [isQualified, s.withoutHash_text]
    exact decide_eq_false s.head_body
  have hlength : 1 < s.names.length := by
    have hpos := List.length_pos_iff.2 s.segments_ne_nil
    simp only [FunctionSymbol.names, List.length_map, List.length_append, List.length_singleton]
    omega
  have hdrop : s.names.dropLast = s.segments.map Segment.text := by
    rw [FunctionSymbol.names, ← List.map_dropLast, List.dropLast_concat]
  rw [component, hnamed, hqualified]
  simp only [hlength, hdrop, Bool.not_false, decide_true, Bool.and_self, if_true]
  exact moduleOf_eq s.segments

theorem component_method (m : MethodSymbol) : component m.text = moduleOf m.segments := by
  obtain ⟨extra, hpath, hsilent⟩ := m.exists_path
  obtain ⟨rest, hrest⟩ := m.exists_withoutHash
  have hnamed : (split "::".toList (path m.text)).filter isNamed = m.segments.map Segment.text :=
    filter_isNamed hpath (by simpa using m.segments_ne_nil) isNamed_of_mem hsilent
  have hqualified : isQualified m.text = true := by
    rw [isQualified, hrest]
    rfl
  rw [component, hnamed, hqualified]
  exact moduleOf_eq m.segments

/-- **The module of a symbol.** The module of a function is made of the segments before its name, but for those that
begin with an upper-case letter, whatever generic arguments, closures and hash stand behind the name; that of a method
of a trait is made in the same way of the path of the type, whatever its generic arguments, the trait and the method
are. -/
theorem component_printed : (∀ s : FunctionSymbol, component s.text = moduleOf s.segments) ∧
    ∀ m : MethodSymbol, component m.text = moduleOf m.segments :=
  ⟨component_function, component_method⟩

/-- a closure in a function, with a segment like a hash, generic arguments that end as a symbol with a hash does, and
a hash -/
def oddFunction : FunctionSymbol where
  segments :=
    [⟨"app".toList, by decide, by decide⟩, ⟨"h0123456789abcdef".toList, by decide, by decide⟩,
      ⟨"Handler".toList, by decide, by decide⟩]
  function := ⟨"hello".toList, by decide, by decide⟩
  generics := some ⟨true, "app::T::h0123456789abcdef".toList⟩
  closures := [⟨"\x7bclosure\x7d\x7d".toList, by decide, by decide⟩]
  hash := some ⟨"FEDCBA9876543210".toList, by decide, by decide⟩
  segments_ne_nil := by decide
  function_ne_hash h heq := by
    have hlength := congrArg List.length heq
    rw [List.length_cons, h.length_digits] at hlength
    cases hlength

/-- a method of a type whose generic arguments hold what looks like a trait, called what a hash looks like -/
def oddMethod : MethodSymbol where
  segments :=
    [⟨"app".toList, by decide, by decide⟩, ⟨"sink".toList, by decide, by decide⟩, ⟨"Udp".toList, by decide, by decide⟩]
  generics := some ⟨false, "<T as app::Sink>::Item".toList⟩
  trait := "app::Sink".toList
  method := "h0123456789abcdef".toList
  segments_ne_nil := by decide

example : oddFunction.text =
      "app::h0123456789abcdef::Handler::hello::<app::T::h0123456789abcdef>::\x7b\x7bclosure\x7d\x7d".toList ++
        "::hFEDCBA9876543210".toList ∧
    component oddFunction.text = "app::h0123456789abcdef".toList ∧
    oddMethod.text = "<app::sink::Udp<<T as app::Sink>::Item> as app::Sink>::h0123456789abcdef".toList ∧
    component oddMethod.text = "app::sink".toList := by
  refine ⟨?_, ?_, ?_, ?_⟩ <;> decide +kernel

end LogRelay.Trace
