import Aerosuite.Library.Brackets
import Mathlib.Algebra.Order.Group.Nat

/-! The XML helpers of `aerocore::aws`.  A text is a list of characters, and a position in it
counts characters.  A slice outside the text is a fault, and so is a loop that does not end within
its number of rounds. -/

namespace Aerosuite.Aws

open Search Brackets

/-- Why a program does not return. -/
inductive Fault where
  | outOfRange
  | unwrapNone
  | unfinished
  deriving DecidableEq

abbrev Checked := Except Fault

/-- `&s[start..]`. -/
def sliceFrom (s : List Char) (start : ℕ) : Checked (List Char) :=
  if start ≤ s.length then .ok (s.drop start) else .error .outOfRange

/-- `&s[start..stop]`. -/
def slice (s : List Char) (start stop : ℕ) : Checked (List Char) :=
  if start ≤ stop ∧ stop ≤ s.length then .ok ((s.take stop).drop start) else .error .outOfRange

/-- `<tag>`. -/
def openTag (tag : List Char) : List Char := '<' :: (tag ++ ['>'])

/-- `</tag>`. -/
def closeTag (tag : List Char) : List Char := '<' :: ('/' :: tag ++ ['>'])

/-- The loop of `extract_balanced`, for a number of rounds. -/
def balancedLoop (haystack opn close : List Char) (content_start : ℕ) :
    ℕ → ℕ → ℕ → Checked (Option (List Char))
  | 0, _, _ => .error .unfinished
  | rounds + 1, depth, pos => do
    let rest ← sliceFrom haystack pos
    let next_open := (find opn rest).map (pos + ·)
    let next_close := (find close rest).map (pos + ·)
    match next_close with
    | none => pure none
    | some c =>
      match next_open.filter (· < c) with
      | some o => balancedLoop haystack opn close content_start rounds (depth + 1) (o + opn.length)
      | none =>
        if depth - 1 = 0 then some <$> slice haystack content_start c
        else
          balancedLoop haystack opn close content_start rounds (depth - 1) (c + close.length)

/-- `extract_balanced`. -/
def extractBalanced (haystack tag : List Char) : Checked (Option (List Char)) :=
  match find (openTag tag) haystack with
  | none => pure none
  | some i =>
    let content_start := i + (openTag tag).length
    balancedLoop haystack (openTag tag) (closeTag tag) content_start (haystack.length + 1) 1
      content_start

/-- `extract_scalar`. -/
def extractScalar (haystack tag : List Char) : Checked (Option (List Char)) :=
  match find (openTag tag) haystack with
  | none => pure none
  | some i => do
    let start := i + (openTag tag).length
    let rest ← sliceFrom haystack start
    match find (closeTag tag) rest with
    | none => pure none
    | some j =>
      let text ← slice haystack start (j + start)
      pure (some (Text.trim text))

theorem sliceFrom_append (u v : List Char) : sliceFrom (u ++ v) u.length = .ok v := by
  rw [sliceFrom, if_pos (by simp), List.drop_left]

theorem slice_append (u v w : List Char) :
    slice (u ++ (v ++ w)) u.length (u ++ v).length = .ok v := by
  rw [slice, if_pos (by simp), ← List.append_assoc, List.take_left, List.drop_left]

section Loop

variable {o c : Tag '<' '>'}

/-- The next tag of a text with a closing tag: the loop takes the one that comes first. -/
theorem next_tag {rest : List Char} {j : ℕ}
    (hc : find c.word rest = some j) (pos : ℕ) :
    ∃ u v, ¬ o.word <:+: u ∧ ¬ c.word <:+: u ∧
      ((((find o.word rest).map (pos + ·)).filter (· < pos + j) = some (pos + u.length) ∧
          rest = u ++ (o.word ++ v)) ∨
        (((find o.word rest).map (pos + ·)).filter (· < pos + j) = none ∧
          rest = u ++ (c.word ++ v) ∧ j = u.length)) := by
  obtain ⟨u, v, hu, rfl, hcu⟩ := find_eq_some c.word_ne_nil hc
  cases ho : find o.word rest with
  | none =>
    refine ⟨u, v, fun hin => ?_, hcu, Or.inr ⟨rfl, hu, rfl⟩⟩
    rw [hu] at ho
    exact find_eq_none.mp ho (List.infix_append_of_infix_left hin)
  | some i =>
    obtain ⟨u', v', hu', rfl, hou⟩ := find_eq_some o.word_ne_nil ho
    by_cases hlt : u'.length < u.length
    · have hpre : u' <+: u :=
        List.prefix_of_prefix_length_le ⟨_, hu'.symm⟩ ⟨_, hu.symm⟩ (by omega)
      refine ⟨u', v', hou, fun hin => hcu (hin.trans hpre.isInfix), Or.inl ⟨?_, hu'⟩⟩
      simp [Option.filter, hlt]
    · have hpre : u <+: u' :=
        List.prefix_of_prefix_length_le ⟨_, hu.symm⟩ ⟨_, hu'.symm⟩ (by omega)
      refine ⟨u, v, fun hin => hou (hin.trans hpre.isInfix), hcu, Or.inr ⟨?_, hu, rfl⟩⟩
      simp [Option.filter, hlt]

/-- The loop, with `mid` behind it and `rest` before it, looks for what closes `depth` tags. -/
def Finds (o c : Tag '<' '>') (mid rest : List Char) (depth : ℕ)
    (result : Checked (Option (List Char))) : Prop :=
  ∃ r, result = .ok r ∧ ∀ x, r = some x ↔ ∃ inner post, x = mid ++ inner ∧
    rest = inner ++ (c.word ++ post) ∧ Closes o.word c.word depth inner

/-- The loop passes a tag `t` that does not end the search. -/
theorem Finds.pass {t : Tag '<' '>'} {mid u v : List Char} {depth depth' : ℕ}
    {result : Checked (Option (List Char))} (hcu : ¬ c.word <:+: u)
    (hend : t.word = c.word → ¬ Closes o.word c.word depth u)
    (hcloses : ∀ s, Closes o.word c.word depth (u ++ (t.word ++ s)) ↔
      Closes o.word c.word depth' s)
    (h : Finds o c (mid ++ (u ++ t.word)) v depth' result) :
    Finds o c mid (u ++ (t.word ++ v)) depth result := by
  obtain ⟨r, hr, hspec⟩ := h
  refine ⟨r, hr, fun x => (hspec x).trans ?_⟩
  constructor
  · rintro ⟨inner, post, rfl, rfl, hin⟩
    exact ⟨u ++ (t.word ++ inner), post, by simp, by simp, (hcloses inner).mpr hin⟩
  · rintro ⟨inner, post, rfl, hsplit, hin⟩
    rcases Tag.append_word_eq hcu hsplit with ⟨heq, rfl, -⟩ | ⟨inner', rfl, rfl⟩
    · exact absurd hin (hend heq)
    · exact ⟨inner', post, by simp, rfl, (hcloses inner').mp hin⟩

theorem balancedLoop_spec (hoc : o.word ≠ c.word) (rounds : ℕ) (head mid rest : List Char)
    (depth : ℕ) (hrounds : rest.length < rounds) (hdepth : 1 ≤ depth) :
    Finds o c mid rest depth (balancedLoop (head ++ (mid ++ rest)) o.word c.word head.length
      rounds depth (head ++ mid).length) := by
  induction rounds generalizing mid rest depth with
  | zero => omega
  | succ rounds ih =>
    -- The rounds that are left suffice for what follows the next tag.
    have hpass : ∀ (t : Tag '<' '>') (u v : List Char) (depth' : ℕ), rest = u ++ (t.word ++ v) →
        1 ≤ depth' → Finds o c (mid ++ (u ++ t.word)) v depth'
          (balancedLoop (head ++ (mid ++ rest)) o.word c.word head.length rounds depth'
            ((head ++ mid).length + u.length + t.word.length)) := by
      rintro t u v depth' rfl hdepth'
      have hword := List.length_pos_iff.mpr t.word_ne_nil
      simp only [List.length_append] at hrounds
      have hv := ih (mid ++ (u ++ t.word)) v depth' (by omega) hdepth'
      simpa only [List.append_assoc, List.length_append, Nat.add_assoc] using hv
    have hrest : sliceFrom (head ++ (mid ++ rest)) (head ++ mid).length = .ok rest := by
      rw [← List.append_assoc, sliceFrom_append]
    rw [balancedLoop, hrest]
    simp only [bind, Except.bind]
    cases hc : find c.word rest with
    | none =>
      -- Without a closing tag nothing is closed.
      refine ⟨none, rfl, fun x => iff_of_false nofun ?_⟩
      rintro ⟨inner, post, -, rfl, -⟩
      exact absurd (List.infix_append' inner c.word post) (find_eq_none.mp hc)
    | some j =>
      obtain ⟨u, v, hou, hcu, ⟨hnext, hsplit⟩ | ⟨hnext, hsplit, rfl⟩⟩ :=
        next_tag hc (head ++ mid).length (o := o)
      · simp only [Option.map_some, hnext]
        have hv := hpass o u v (depth + 1) hsplit (by omega)
        rw [hsplit] at hv ⊢
        apply hv.pass hcu
        · exact fun heq => absurd heq hoc
        · exact closes_open hou hcu hoc hdepth
      · simp only [Option.map_some, hnext]
        by_cases hone : depth = 1
        · -- The tag closes the last open one, and a longer text would close too many.
          subst hone hsplit
          have hslice : slice (head ++ (mid ++ (u ++ (c.word ++ v)))) head.length
              ((head ++ mid).length + u.length) = .ok (mid ++ u) := by
            have happend := slice_append head (mid ++ u) (c.word ++ v)
            simpa only [List.append_assoc, List.length_append, Nat.add_assoc] using happend
          rw [if_pos rfl, hslice]
          refine ⟨some (mid ++ u), rfl, fun x => ⟨fun hx => ?_, ?_⟩⟩
          · obtain rfl := Option.some.inj hx
            exact ⟨u, v, rfl, rfl, closes_plain hou hcu⟩
          · rintro ⟨inner, post, rfl, hsplit, hcloses⟩
            rcases Tag.append_word_eq hcu hsplit with ⟨-, rfl, -⟩ | ⟨inner', rfl, -⟩
            · rfl
            · exact absurd hcloses (not_closes_close hou hcu hoc inner')
        · obtain ⟨depth, rfl⟩ : ∃ d, depth = d + 1 := ⟨depth - 1, by omega⟩
          have hdepth' : 1 ≤ depth := by omega
          rw [if_neg (by omega), Nat.add_sub_cancel]
          have hv := hpass c u v depth hsplit hdepth'
          rw [hsplit] at hv ⊢
          apply hv.pass hcu
          · intro _ hcloses
            have htotal := hcloses.total
            rw [(occ_eq_zero o.word_ne_nil).mpr hou, (occ_eq_zero c.word_ne_nil).mpr hcu] at htotal
            omega
          · exact closes_close hou hcu hoc hdepth'

end Loop

section ExtractBalanced

variable {tag : List Char}

theorem openTag_ne_nil (tag : List Char) : openTag tag ≠ [] := List.cons_ne_nil _ _

theorem closeTag_ne_nil (tag : List Char) : closeTag tag ≠ [] := List.cons_ne_nil _ _

theorem openTag_ne_closeTag (tag : List Char) : openTag tag ≠ closeTag tag := fun h => by
  have hlen := congrArg List.length h
  simp [openTag, closeTag] at hlen

theorem extractBalanced_eq_none {haystack : List Char} (h : ¬ openTag tag <:+: haystack) :
    extractBalanced haystack tag = .ok none := by
  rw [extractBalanced, find_eq_none.mpr h]
  rfl

variable (hlt : '<' ∉ tag) (hgt : '>' ∉ tag)
include hlt hgt

/-- What stands after the first `<tag>` is searched for the end of that element. -/
theorem extractBalanced_finds {pre : List Char} (hpre : ¬ openTag tag <:+: pre)
    (rest : List Char) :
    ∃ r, extractBalanced (pre ++ (openTag tag ++ rest)) tag = .ok r ∧
      ∀ inner, r = some inner ↔ ∃ post, rest = inner ++ (closeTag tag ++ post) ∧
        Balanced (openTag tag) (closeTag tag) inner := by
  let o : Tag '<' '>' := ⟨tag, by decide, hlt, hgt⟩
  let c : Tag '<' '>' := ⟨'/' :: tag, by decide, by simp [hlt], by simp [hgt]⟩
  have hfind : find (openTag tag) (pre ++ (openTag tag ++ rest)) = some pre.length :=
    Tag.find_word (t := o) hpre rest
  have hstart : pre.length + (openTag tag).length = (pre ++ openTag tag).length :=
    (List.length_append ..).symm
  have hloop := balancedLoop_spec (o := o) (c := c) (openTag_ne_closeTag tag)
    ((pre ++ (openTag tag ++ rest)).length + 1) (pre ++ openTag tag) [] rest 1
    (by simp only [List.length_append]; omega) le_rfl
  rw [extractBalanced, hfind]
  simp only [hstart]
  rw [List.append_nil, List.nil_append, List.append_assoc] at hloop
  obtain ⟨r, hr, hspec⟩ := hloop
  refine ⟨r, hr, fun inner => (hspec inner).trans ?_⟩
  simp only [closes_one, List.nil_append]
  constructor
  · rintro ⟨_, post, rfl, h⟩
    exact ⟨post, h⟩
  · rintro ⟨post, h⟩
    exact ⟨inner, post, rfl, h⟩

theorem extractBalanced_eq_some {pre inner post : List Char} (hpre : ¬ openTag tag <:+: pre)
    (hinner : Balanced (openTag tag) (closeTag tag) inner) :
    extractBalanced (pre ++ (openTag tag ++ (inner ++ (closeTag tag ++ post)))) tag =
      .ok (some inner) := by
  obtain ⟨r, hr, hspec⟩ := extractBalanced_finds hlt hgt hpre (inner ++ (closeTag tag ++ post))
  rw [hr, (hspec inner).mpr ⟨post, rfl, hinner⟩]

theorem first_openTag_unique {u u' r r' : List Char} (hu : ¬ openTag tag <:+: u)
    (hu' : ¬ openTag tag <:+: u') (h : u ++ (openTag tag ++ r) = u' ++ (openTag tag ++ r')) :
    u = u' ∧ r = r' :=
  Tag.first_unique (t := (⟨tag, by decide, hlt, hgt⟩ : Tag '<' '>')) hu hu' h

omit hlt hgt in
variable (tag) in
theorem openTag_split (haystack : List Char) :
    (¬ openTag tag <:+: haystack) ∨
    ∃ pre rest, haystack = pre ++ (openTag tag ++ rest) ∧ ¬ openTag tag <:+: pre := by
  cases h : find (openTag tag) haystack with
  | none => exact Or.inl (find_eq_none.mp h)
  | some n =>
    obtain ⟨pre, rest, rfl, -, hpre⟩ := find_eq_some (openTag_ne_nil tag) h
    exact Or.inr ⟨pre, rest, rfl, hpre⟩

/-- `extract_balanced` returns the content of the first `<tag>` up to the `</tag>` that matches
it, and nothing when there is no such content. -/
theorem extract_balanced_matches (haystack : List Char) :
    ∃ r, extractBalanced haystack tag = .ok r ∧
      (∀ inner, r = some inner ↔ ∃ pre post,
        haystack = pre ++ (openTag tag ++ (inner ++ (closeTag tag ++ post))) ∧
        ¬ openTag tag <:+: pre ∧ occ (openTag tag) inner = occ (closeTag tag) inner ∧
        ∀ p, p <+: inner → occ (closeTag tag) p ≤ occ (openTag tag) p) ∧
      (r = none ↔ (¬ openTag tag <:+: haystack) ∨ ∃ pre rest,
        haystack = pre ++ (openTag tag ++ rest) ∧ (¬ openTag tag <:+: pre) ∧
        ∀ inner post, rest = inner ++ (closeTag tag ++ post) →
          ¬ Balanced (openTag tag) (closeTag tag) inner) := by
  rcases openTag_split tag haystack with hnone | ⟨pre, rest, rfl, hpre⟩
  · refine ⟨none, extractBalanced_eq_none hnone, fun inner => iff_of_false nofun ?_,
      iff_of_true rfl (Or.inl hnone)⟩
    rintro ⟨pre, post, rfl, -⟩
    exact hnone (List.infix_append' pre _ _)
  · obtain ⟨r, hr, hspec⟩ := extractBalanced_finds hlt hgt hpre rest
    refine ⟨r, hr, fun inner => (hspec inner).trans ?_, ?_⟩
    · constructor
      · rintro ⟨post, rfl, hinner⟩
        exact ⟨pre, post, rfl, hpre, hinner⟩
      · rintro ⟨pre', post, heq, hpre', hinner⟩
        obtain ⟨-, rfl⟩ := first_openTag_unique hlt hgt hpre hpre' heq
        exact ⟨post, rfl, hinner⟩
    · constructor
      · rintro rfl
        refine Or.inr ⟨pre, rest, rfl, hpre, fun inner post hrest hinner => ?_⟩
        cases (hspec inner).mpr ⟨post, hrest, hinner⟩
      · rintro (hnone | ⟨pre', rest', heq, hpre', hno⟩)
        · exact absurd (List.infix_append' pre _ _) hnone
        · obtain ⟨-, rfl⟩ := first_openTag_unique hlt hgt hpre hpre' heq
          rw [Option.eq_none_iff_forall_ne_some]
          intro inner hinner
          obtain ⟨post, hrest, hbalanced⟩ := (hspec inner).mp hinner
          exact hno inner post hrest hbalanced

theorem extractBalanced_total (haystack : List Char) :
    ∃ r, extractBalanced haystack tag = .ok r := by
  rcases openTag_split tag haystack with hnone | ⟨pre, rest, rfl, hpre⟩
  · exact ⟨none, extractBalanced_eq_none hnone⟩
  · obtain ⟨r, hr, -⟩ := extractBalanced_finds hlt hgt hpre rest
    exact ⟨r, hr⟩

theorem extractBalanced_split {remaining xml : List Char}
    (h : extractBalanced remaining tag = .ok (some xml)) :
    ∃ pre post, remaining = pre ++ (openTag tag ++ (xml ++ (closeTag tag ++ post))) ∧
      (¬ openTag tag <:+: pre) ∧ Balanced (openTag tag) (closeTag tag) xml := by
  rcases openTag_split tag remaining with hnone | ⟨pre, rest, rfl, hpre⟩
  · rw [extractBalanced_eq_none hnone] at h
    cases h
  · obtain ⟨r, hr, hspec⟩ := extractBalanced_finds hlt hgt hpre rest
    obtain rfl := Except.ok.inj (hr.symm.trans h)
    obtain ⟨post, rfl, hxml⟩ := (hspec xml).mp rfl
    exact ⟨pre, post, rfl, hpre, hxml⟩

/-- The text after the first block begins where the lengths of its parts say. -/
theorem skip_block {pre : List Char} (hpre : ¬ openTag tag <:+: pre) (xml post : List Char) :
    find (openTag tag) (pre ++ (openTag tag ++ (xml ++ (closeTag tag ++ post)))) =
        some pre.length ∧
      sliceFrom (pre ++ (openTag tag ++ (xml ++ (closeTag tag ++ post))))
        (pre.length + (openTag tag).length + xml.length + (closeTag tag).length) = .ok post := by
  constructor
  · exact Tag.find_word (t := (⟨tag, by decide, hlt, hgt⟩ : Tag '<' '>')) hpre _
  · have happend := sliceFrom_append (pre ++ openTag tag ++ xml ++ closeTag tag) post
    simpa only [List.append_assoc, List.length_append, Nat.add_assoc] using happend

omit hlt hgt in
/-- The outer one of two nested elements. -/
theorem extract_balanced_matches_nested :
    extractBalanced "x<a>1<a></a></a></a>".toList ['a'] = .ok (some "1<a></a>".toList) := by
  obtain ⟨r, hr, hspec, -⟩ :=
    extract_balanced_matches (show '<' ∉ ['a'] by decide) (by decide)
      "x<a>1<a></a></a></a>".toList
  have hbelow : ∀ p ∈ "1<a></a>".toList.inits,
      occ (closeTag ['a']) p ≤ occ (openTag ['a']) p := by decide +kernel
  rw [hr, (hspec "1<a></a>".toList).mpr]
  refine ⟨['x'], "</a>".toList, by decide +kernel, by decide, by decide +kernel, fun p hp => ?_⟩
  exact hbelow p (List.mem_inits p _ |>.mpr hp)

end ExtractBalanced

section ExtractScalar

variable {tag : List Char}

theorem extractScalar_of_not_infix {haystack : List Char} (h : ¬ openTag tag <:+: haystack) :
    extractScalar haystack tag = .ok none := by
  rw [extractScalar, find_eq_none.mpr h]
  rfl

/-- What stands after the first `<tag>` is cut at the first `</tag>`, if there is one. -/
theorem extractScalar_finds (haystack : List Char) {i : ℕ}
    (hopen : find (openTag tag) haystack = some i) :
    ∃ pre rest, haystack = pre ++ (openTag tag ++ rest) ∧ ¬ openTag tag <:+: pre ∧
      ((extractScalar haystack tag = .ok none ∧ ¬ closeTag tag <:+: rest) ∨
        ∃ text post, rest = text ++ (closeTag tag ++ post) ∧ ¬ closeTag tag <:+: text ∧
          extractScalar haystack tag = .ok (some (Text.trim text))) := by
  obtain ⟨pre, rest, rfl, rfl, hpre⟩ := find_eq_some (openTag_ne_nil tag) hopen
  have hrest : sliceFrom (pre ++ (openTag tag ++ rest)) (pre.length + (openTag tag).length) =
      .ok rest := by
    have happend := sliceFrom_append (pre ++ openTag tag) rest
    rwa [List.append_assoc, List.length_append] at happend
  refine ⟨pre, rest, rfl, hpre, ?_⟩
  rw [extractScalar, hopen]
  simp only [hrest, bind, Except.bind]
  cases hclose : find (closeTag tag) rest with
  | none => exact Or.inl ⟨rfl, find_eq_none.mp hclose⟩
  | some j =>
    obtain ⟨text, post, rfl, rfl, htext⟩ := find_eq_some (closeTag_ne_nil tag) hclose
    have hslice : slice (pre ++ (openTag tag ++ (text ++ (closeTag tag ++ post))))
        (pre.length + (openTag tag).length)
        (text.length + (pre.length + (openTag tag).length)) = .ok text := by
      have happend := slice_append (pre ++ openTag tag) text (closeTag tag ++ post)
      have hlen : (pre ++ openTag tag ++ text).length =
          text.length + (pre.length + (openTag tag).length) := by
        simp only [List.length_append]
        omega
      rwa [hlen, List.length_append, List.append_assoc] at happend
    refine Or.inr ⟨text, post, rfl, htext, ?_⟩
    simp only [hslice]
    rfl

theorem extractScalar_total (haystack tag : List Char) :
    ∃ r, extractScalar haystack tag = .ok r := by
  cases hopen : find (openTag tag) haystack with
  | none => exact ⟨none, extractScalar_of_not_infix (find_eq_none.mp hopen)⟩
  | some i =>
    obtain ⟨_, _, -, -, ⟨h, -⟩ | ⟨_, _, -, -, h⟩⟩ := extractScalar_finds haystack hopen
    · exact ⟨_, h⟩
    · exact ⟨_, h⟩

end ExtractScalar

end Aerosuite.Aws
