import Aerosuite.Aws.Extract
import Aerosuite.Library.Xml

/-! The network interfaces in the answers of `DescribeNetworkInterfaces`, as `aeroplug` counts and
selects them: `count_items` walks the elements `<item>` of the set, and the content of the first
`<item>` is taken for the first interface. -/

namespace Aerosuite.Plug

open Search Brackets Xml Aws

def ITEM : List Char := "item".toList

/-- The loop of `count_items`, for a number of rounds. -/
def countLoop : ℕ → List Char → ℕ → Checked ℕ
  | 0, _, _ => .error .unfinished
  | rounds + 1, remaining, count => do
    match ← extractBalanced remaining ITEM with
    | none => pure count
    | some inner =>
      match find (openTag ITEM) remaining with
      | none => .error .unwrapNone
      | some i =>
        let start := i + (openTag ITEM).length
        let rest ← sliceFrom remaining (start + inner.length + (closeTag ITEM).length)
        countLoop rounds rest (count + 1)

/-- `count_items`. -/
def countItems (xml : List Char) : Checked ℕ := do
  match ← extractBalanced xml "networkInterfaceSet".toList with
  | none => pure 0
  | some set_xml => countLoop (set_xml.length + 1) set_xml 0

/-- The content that is taken for the first interface. -/
def firstItem (xml : List Char) : Checked (Option (List Char)) := extractBalanced xml ITEM

theorem lt_not_mem_item : '<' ∉ ITEM := by decide +kernel

theorem gt_not_mem_item : '>' ∉ ITEM := by decide +kernel

/-- A round of the loop passes the first block. -/
theorem countLoop_succ {pre inner : List Char} (hpre : ¬ openTag ITEM <:+: pre)
    (hinner : Balanced (openTag ITEM) (closeTag ITEM) inner) (post : List Char)
    (rounds count : ℕ) :
    countLoop (rounds + 1) (pre ++ (openTag ITEM ++ (inner ++ (closeTag ITEM ++ post)))) count =
      countLoop rounds post (count + 1) := by
  obtain ⟨hfind, hslice⟩ := skip_block lt_not_mem_item gt_not_mem_item hpre inner post
  rw [countLoop, extractBalanced_eq_some lt_not_mem_item gt_not_mem_item hpre hinner]
  simp only [bind, Except.bind, hfind, hslice]

theorem countLoop_of_none {remaining : List Char} (h : extractBalanced remaining ITEM = .ok none)
    (rounds count : ℕ) : countLoop (rounds + 1) remaining count = .ok count := by
  rw [countLoop, h]
  rfl

theorem countLoop_total (rounds : ℕ) (remaining : List Char) (count : ℕ)
    (hrounds : remaining.length < rounds) : ∃ n, countLoop rounds remaining count = .ok n := by
  induction rounds generalizing remaining count with
  | zero => omega
  | succ rounds ih =>
    obtain ⟨r, hr⟩ := extractBalanced_total lt_not_mem_item gt_not_mem_item remaining
    cases r with
    | none => exact ⟨count, countLoop_of_none hr rounds count⟩
    | some inner =>
      obtain ⟨pre, post, rfl, hpre, hinner⟩ :=
        extractBalanced_split lt_not_mem_item gt_not_mem_item hr
      have hword := List.length_pos_iff.mpr (openTag_ne_nil ITEM)
      simp only [List.length_append] at hrounds
      rw [countLoop_succ hpre hinner]
      exact ih post (count + 1) (by omega)

theorem countItems_total (xml : List Char) : ∃ n, countItems xml = .ok n := by
  obtain ⟨r, hr⟩ : ∃ r, extractBalanced xml "networkInterfaceSet".toList = .ok r :=
    extractBalanced_total (by simp) (by simp) xml
  rw [countItems, hr]
  cases r with
  | none => exact ⟨0, rfl⟩
  | some set_xml => exact countLoop_total _ set_xml 0 (Nat.lt_succ_self _)

def itemName : Name := alphaName ITEM (by decide +kernel) (by decide +kernel)

def setName : Name := alphaName "networkInterfaceSet".toList (by simp) (by decide +kernel)

/-- The loop counts the blocks of a text. -/
theorem countLoop_blocks {inners : List (List Char)} {s : List Char}
    (hblocks : Blocks itemName inners s) (rounds count : ℕ) (hrounds : s.length < rounds) :
    countLoop rounds s count = .ok (count + inners.length) := by
  induction hblocks generalizing rounds count with
  | done h =>
    obtain ⟨rounds, rfl⟩ : ∃ n, rounds = n + 1 := ⟨rounds - 1, by omega⟩
    exact countLoop_of_none (extractBalanced_eq_none h) rounds count
  | @block gap inner s inners hgap hinner rest ih =>
    obtain ⟨rounds, rfl⟩ : ∃ n, rounds = n + 1 := ⟨rounds - 1, by omega⟩
    have hword := List.length_pos_iff.mpr itemName.start.word_ne_nil
    simp only [List.length_append] at hrounds
    have hround := countLoop_succ hgap hinner s rounds count
    have hrest := ih rounds (count + 1) (by omega)
    rw [List.length_cons, ← Nat.add_assoc, Nat.add_right_comm, ← hrest]
    exact hround

/-- An answer of `DescribeNetworkInterfaces`: the interfaces of the set, and any text around it
that neither begins another set nor an `<item>` before it. -/
structure EniDocument where
  before : List Char
  before_set : ¬ setName.start.word <:+: before
  before_item : ¬ itemName.start.word <:+: before
  enis : List (CharData × List Tree)
  tail : CharData
  after : List Char

def EniDocument.text (doc : EniDocument) : List Char :=
  enclosed doc.before setName (listing itemName doc.enis doc.tail) doc.after

/-- The text up to the first interface has no `<item>`. -/
theorem EniDocument.first (doc : EniDocument) {gap : CharData} {children : List Tree}
    {rest : List (CharData × List Tree)} (hfirst : doc.enis = (gap, children) :: rest) :
    firstItem doc.text = .ok (some (renderAll children)) := by
  have hne : itemName.start.word ≠ setName.start.word := by decide +kernel
  have hopen : ¬ itemName.start.word <:+: doc.before ++ setName.start.word :=
    not_start_infix_append_tag itemName doc.before_item hne
  have hpre := not_start_infix_append itemName (setName.start.whole_append doc.before) hopen
    (not_start_infix_text itemName gap.2)
  obtain ⟨r, hr, hspec⟩ := extractBalanced_finds lt_not_mem_item gt_not_mem_item hpre
    (renderAll children ++ (closeTag ITEM ++
      (renderAll (listing itemName rest doc.tail) ++ (setName.close.word ++ doc.after))))
  rw [(hspec _).mpr ⟨_, rfl, balanced_renderAll itemName children⟩] at hr
  rw [firstItem, EniDocument.text, enclosed, hfirst, renderAll_listing_cons]
  simp only [List.append_assoc] at hr ⊢
  exact hr

/-- `count_items` never fails, counts the interfaces of an answer, and the first `<item>` of the
answer is the first interface. -/
theorem count_items_interfaces :
    (∀ xml, ∃ n, countItems xml = .ok n) ∧
    ∀ doc : EniDocument, countItems doc.text = .ok doc.enis.length ∧
      ∀ gap children rest, doc.enis = (gap, children) :: rest →
        firstItem doc.text = .ok (some (renderAll children)) := by
  refine ⟨countItems_total, fun doc => ⟨?_, fun gap children rest => doc.first⟩⟩
  have hset : extractBalanced doc.text "networkInterfaceSet".toList =
      .ok (some (renderAll (listing itemName doc.enis doc.tail))) :=
    extractBalanced_eq_some setName.lt_not_mem setName.gt_not_mem doc.before_set
      (balanced_renderAll setName _)
  have hblocks := blocks_listing doc.tail (not_start_infix_text itemName (s := []) (by simp))
    doc.enis
  rw [List.append_nil] at hblocks
  have hcount := countLoop_blocks hblocks _ 0 (Nat.lt_succ_self _)
  rw [countItems, hset]
  rw [Nat.zero_add, List.length_map] at hcount
  exact hcount

namespace Names

def networkInterfaceId : Name := alphaName "networkInterfaceId".toList (by simp) (by decide +kernel)

end Names

section Sample

/-- An interface with its security group, which is in an element `<item>` as well. -/
def sampleEni (id : CharData) : List Tree :=
  [.element Names.networkInterfaceId [.text id],
    .element (alphaName "groupSet".toList (by simp) (by decide +kernel))
      [.element itemName [.element (alphaName "groupId".toList (by simp) (by decide +kernel))
        [.text (charData "sg-0d4c".toList (by decide +kernel))]]]]

def sampleEnis : EniDocument where
  before := "<DescribeNetworkInterfacesResponse>".toList
  before_set := by decide +kernel
  before_item := by decide +kernel
  enis := [(noText, sampleEni (charData "eni-0a1b".toList (by decide +kernel))),
    (noText, sampleEni (charData "eni-2c3d".toList (by decide +kernel)))]
  tail := noText
  after := "</DescribeNetworkInterfacesResponse>".toList

example : countItems sampleEnis.text = .ok 2 := by decide +kernel

end Sample

end Aerosuite.Plug
