import Aerosuite.Library.Brackets

/-! XML documents as trees.  A tree is written with a tag before and after each element, and text
has no mark of a tag, so the tags of one name in a written document match. -/

namespace Xml

open Brackets Search

/-- The name of an element. -/
structure Name where
  text : List Char
  ne_nil : text ≠ []
  lt_not_mem : '<' ∉ text
  gt_not_mem : '>' ∉ text
  slash_not_mem : '/' ∉ text

/-- A name of letters. -/
def alphaName (s : List Char) (hne : s ≠ []) (h : s.all Char.isAlpha) : Name where
  text := s
  ne_nil := hne
  lt_not_mem hmem := absurd (List.all_eq_true.mp h _ hmem) (by decide)
  gt_not_mem hmem := absurd (List.all_eq_true.mp h _ hmem) (by decide)
  slash_not_mem hmem := absurd (List.all_eq_true.mp h _ hmem) (by decide)

/-- Text without the mark that begins a tag. -/
abbrev CharData := { s : List Char // '<' ∉ s }

def charData (s : List Char) (h : '<' ∉ s) : CharData := ⟨s, h⟩

theorem lt_not_mem_nil : '<' ∉ ([] : List Char) := List.not_mem_nil

def noText : CharData := ⟨[], lt_not_mem_nil⟩

/-- A tree: text, an element `<name/>`, or an element with its children. -/
inductive Tree where
  | text (s : CharData)
  | empty (name : Name)
  | element (name : Name) (children : List Tree)

namespace Name

def start (n : Name) : Tag '<' '>' := ⟨n.text, by decide, n.lt_not_mem, n.gt_not_mem⟩

def close (n : Name) : Tag '<' '>' :=
  ⟨'/' :: n.text, by decide, by simp [n.lt_not_mem], by simp [n.gt_not_mem]⟩

def alone (n : Name) : Tag '<' '>' :=
  ⟨n.text ++ ['/'], by decide, by simp [n.lt_not_mem], by simp [n.gt_not_mem]⟩

variable {m n : Name}

theorem word_inj {t t' : Tag '<' '>'} (h : t.word = t'.word) : t.body = t'.body := by
  have htail := (List.cons.inj h).2
  exact (List.append_inj' htail rfl).1

theorem start_inj (h : m.start.word = n.start.word) : m = n := by
  have hbody : m.text = n.text := word_inj h
  cases m
  cases n
  simp_all

theorem start_ne_close : m.start.word ≠ n.close.word := fun h => by
  have hbody : m.text = '/' :: n.text := word_inj h
  exact m.slash_not_mem (by simp [hbody])

theorem start_ne_alone : m.start.word ≠ n.alone.word := fun h => by
  have hbody : m.text = n.text ++ ['/'] := word_inj h
  exact m.slash_not_mem (by simp [hbody])

theorem close_inj (h : m.close.word = n.close.word) : m = n := by
  have hbody : '/' :: m.text = '/' :: n.text := word_inj h
  cases m
  cases n
  simp_all

theorem close_ne_alone : m.close.word ≠ n.alone.word := fun h => by
  have hbody : '/' :: m.text = n.text ++ ['/'] := word_inj h
  rcases List.append_eq_cons_iff.mp hbody.symm with ⟨hnil, -⟩ | ⟨s, hs, -⟩
  · exact n.ne_nil hnil
  · exact n.slash_not_mem (by simp [hs])

end Name

mutual

/-- The text of a tree. -/
def Tree.render : Tree → List Char
  | .text s => s
  | .empty name => name.alone.word
  | .element name children => name.start.word ++ (renderAll children ++ name.close.word)

def renderAll : List Tree → List Char
  | [] => []
  | t :: ts => t.render ++ renderAll ts

end

mutual

theorem Tree.whole_render : ∀ t : Tree, Whole '<' '>' t.render
  | .text s => by
    rw [Tree.render]
    exact whole_of_not_mem s.2
  | .empty name => by
    rw [Tree.render]
    exact name.alone.whole
  | .element name children => by
    rw [Tree.render]
    exact name.start.whole.append ((whole_renderAll children).append name.close.whole)

theorem whole_renderAll : ∀ ts : List Tree, Whole '<' '>' (renderAll ts)
  | [] => by
    rw [renderAll]
    exact whole_of_not_mem (by simp)
  | t :: ts => by
    rw [renderAll]
    exact t.whole_render.append (whole_renderAll ts)

end

section Matching

variable (n : Name)

/-- A tag that is neither `<n>` nor `</n>` leaves the tags of `n` matched. -/
theorem balanced_tag {t : Tag '<' '>'} (hs : n.start.word ≠ t.word) (hc : n.close.word ≠ t.word) :
    Balanced n.start.word n.close.word t.word := by
  refine balanced_of_not_infix ?_ ?_
  · rw [← occ_eq_zero n.start.word_ne_nil, Tag.occ_word, if_neg hs]
  · rw [← occ_eq_zero n.close.word_ne_nil, Tag.occ_word, if_neg hc]

theorem balanced_text {s : List Char} (h : '<' ∉ s) :
    Balanced n.start.word n.close.word s := by
  refine balanced_of_not_infix ?_ ?_
  · exact fun hin => h (hin.subset n.start.lt_mem_word)
  · exact fun hin => h (hin.subset n.close.lt_mem_word)

mutual

theorem Tree.balanced_render : ∀ t : Tree, Balanced n.start.word n.close.word t.render
  | .text s => by
    rw [Tree.render]
    exact balanced_text n s.2
  | .empty name => by
    rw [Tree.render]
    exact balanced_tag n Name.start_ne_alone Name.close_ne_alone
  | .element name children => by
    have hchildren := balanced_renderAll children
    have hwhole := whole_renderAll children
    rw [Tree.render]
    by_cases hn : n.start.word = name.start.word
    · obtain rfl := Name.start_inj hn
      exact hchildren.wrap Name.start_ne_close hwhole
    · have hc : n.close.word ≠ name.close.word := fun h => hn (by rw [Name.close_inj h])
      have hstart := balanced_tag n hn (Name.start_ne_close.symm)
      have hclose := balanced_tag n Name.start_ne_close hc
      exact hstart.append name.start.whole (hchildren.append hwhole hclose)

theorem balanced_renderAll : ∀ ts : List Tree,
    Balanced n.start.word n.close.word (renderAll ts)
  | [] => by
    rw [renderAll]
    exact balanced_text n (by simp)
  | t :: ts => by
    rw [renderAll]
    exact (t.balanced_render).append t.whole_render (balanced_renderAll ts)

end

end Matching

section First

mutual

/-- The children of the first element `<n>` of a tree, in the order of the text. -/
def Tree.first (n : Name) : Tree → Option (List Tree)
  | .text _ => none
  | .empty _ => none
  | .element name children => if name.text = n.text then some children else firstAll n children

def firstAll (n : Name) : List Tree → Option (List Tree)
  | [] => none
  | t :: ts => (t.first n).or (firstAll n ts)

end

theorem Name.ext_text {m n : Name} (h : m.text = n.text) : m = n := by
  cases m
  cases n
  simp_all

variable (n : Name)

theorem not_start_infix_append {s r : List Char} (hw : Whole '<' '>' s)
    (hs : ¬ n.start.word <:+: s) (hr : ¬ n.start.word <:+: r) : ¬ n.start.word <:+: s ++ r := by
  rw [← occ_eq_zero n.start.word_ne_nil] at *
  rw [n.start.occ_append hw, hs, hr]

theorem not_start_infix_tag {t : Tag '<' '>'} (h : n.start.word ≠ t.word) :
    ¬ n.start.word <:+: t.word := by
  rw [← occ_eq_zero n.start.word_ne_nil, Tag.occ_word, if_neg h]

theorem not_start_infix_append_tag {s : List Char} {t : Tag '<' '>'}
    (hs : ¬ n.start.word <:+: s) (h : n.start.word ≠ t.word) :
    ¬ n.start.word <:+: s ++ t.word := by
  rw [← occ_eq_zero n.start.word_ne_nil] at hs ⊢
  have hcut := n.start.occ_cut t s []
  rwa [List.append_nil, if_neg h, hs] at hcut

theorem not_start_infix_text {s : List Char} (h : '<' ∉ s) : ¬ n.start.word <:+: s :=
  fun hin => h (hin.subset n.start.lt_mem_word)

/-- The text begins with the element `<n>` after a text without `<n>`. -/
def Begins (s : List Char) (children : List Tree) : Prop :=
  ∃ u v, s = u ++ (n.start.word ++ (renderAll children ++ (n.close.word ++ v))) ∧
    ¬ n.start.word <:+: u

variable {n}

theorem Begins.append_left {s r : List Char} {children : List Tree} (hw : Whole '<' '>' r)
    (hr : ¬ n.start.word <:+: r) (h : Begins n s children) : Begins n (r ++ s) children := by
  obtain ⟨u, v, rfl, hu⟩ := h
  exact ⟨r ++ u, v, by simp, not_start_infix_append n hw hr hu⟩

theorem Begins.append_right {s : List Char} {children : List Tree} (h : Begins n s children)
    (r : List Char) : Begins n (s ++ r) children := by
  obtain ⟨u, v, rfl, hu⟩ := h
  exact ⟨u, v ++ r, by simp, hu⟩

/-- What `first` says about the text. -/
def Shows (n : Name) (s : List Char) : Option (List Tree) → Prop
  | none => ¬ n.start.word <:+: s
  | some children => Begins n s children

mutual

theorem Tree.shows_first : ∀ t : Tree, Shows n t.render (t.first n)
  | .text s => by
    rw [Tree.render, Tree.first]
    exact not_start_infix_text n s.2
  | .empty name => by
    rw [Tree.render, Tree.first]
    exact not_start_infix_tag n Name.start_ne_alone
  | .element name children => by
    have hchildren := shows_firstAll children
    rw [Tree.render, Tree.first]
    by_cases hn : name.text = n.text
    · obtain rfl := Name.ext_text hn
      rw [if_pos rfl]
      exact ⟨[], [], by simp, not_start_infix_text _ (by simp)⟩
    · have hstart : n.start.word ≠ name.start.word := fun h => hn (by rw [Name.start_inj h])
      have hopen := not_start_infix_tag n hstart
      have hclose : ¬ n.start.word <:+: name.close.word :=
        not_start_infix_tag n Name.start_ne_close
      rw [if_neg hn]
      cases hfirst : firstAll n children with
      | none =>
        rw [hfirst] at hchildren
        exact not_start_infix_append n name.start.whole hopen
          (not_start_infix_append n (whole_renderAll children) hchildren hclose)
      | some cs =>
        rw [hfirst] at hchildren
        exact (Begins.append_right hchildren _).append_left name.start.whole hopen

theorem shows_firstAll : ∀ ts : List Tree, Shows n (renderAll ts) (firstAll n ts)
  | [] => by
    rw [renderAll, firstAll]
    exact not_start_infix_text n (by simp)
  | t :: ts => by
    have ht := t.shows_first
    have hts := shows_firstAll ts
    rw [renderAll, firstAll]
    cases hfirst : t.first n with
    | none =>
      rw [hfirst] at ht
      rw [Option.none_or]
      cases hrest : firstAll n ts with
      | none =>
        rw [hrest] at hts
        exact not_start_infix_append n t.whole_render ht hts
      | some cs =>
        rw [hrest] at hts
        exact Begins.append_left t.whole_render ht hts
    | some cs =>
      rw [hfirst] at ht
      exact Begins.append_right ht _

end

theorem firstAll_append (ts us : List Tree) :
    firstAll n (ts ++ us) = (firstAll n ts).or (firstAll n us) := by
  induction ts with
  | nil => simp [firstAll]
  | cons t ts ih => simp [firstAll, ih, Option.or_assoc]

theorem firstAll_eq_none {ts : List Tree} : firstAll n ts = none ↔ ∀ t ∈ ts, t.first n = none := by
  induction ts with
  | nil => simp [firstAll]
  | cons t ts ih => simp [firstAll, ih]

/-- The only tree of a list with an element `<n>` has the first one. -/
theorem firstAll_eq_some {ts : List Tree} {t : Tree} {children : List Tree} (ht : t ∈ ts)
    (hfirst : t.first n = some children) (hother : ∀ t' ∈ ts, t' = t ∨ t'.first n = none) :
    firstAll n ts = some children := by
  induction ts with
  | nil => cases ht
  | cons t' ts ih =>
    rw [firstAll]
    rcases hother t' List.mem_cons_self with rfl | hnone
    · rw [hfirst]
      rfl
    · rw [hnone, Option.none_or]
      apply ih
      · rcases List.mem_cons.mp ht with rfl | ht
        · cases hfirst.symm.trans hnone
        · exact ht
      · exact fun t'' ht'' => hother t'' (List.mem_cons_of_mem _ ht'')

end First

section Blocks

/-- The contents of the elements `<n>` of a text, one after the other. -/
inductive Blocks (n : Name) : List (List Char) → List Char → Prop
  | done {s : List Char} (h : ¬ n.start.word <:+: s) : Blocks n [] s
  | block {gap inner s : List Char} {inners : List (List Char)} (hgap : ¬ n.start.word <:+: gap)
      (hinner : Balanced n.start.word n.close.word inner) (rest : Blocks n inners s) :
      Blocks n (inner :: inners) (gap ++ (n.start.word ++ (inner ++ (n.close.word ++ s))))

/-- The elements `<n>` of a list, each after some text, and the text after them. -/
def listing (n : Name) (items : List (CharData × List Tree)) (tail : CharData) : List Tree :=
  items.flatMap (fun item => [.text item.1, .element n item.2]) ++ [.text tail]

theorem renderAll_listing_cons (n : Name) (item : CharData × List Tree)
    (items : List (CharData × List Tree)) (tail : CharData) :
    renderAll (listing n (item :: items) tail) =
      item.1 ++ (n.start.word ++ (renderAll item.2 ++ (n.close.word ++
        renderAll (listing n items tail)))) := by
  simp [listing, renderAll, Tree.render]

theorem blocks_listing {n : Name} {epilogue : List Char} (tail : CharData)
    (hepilogue : ¬ n.start.word <:+: epilogue) (items : List (CharData × List Tree)) :
    Blocks n (items.map fun item => renderAll item.2)
      (renderAll (listing n items tail) ++ epilogue) := by
  induction items with
  | nil =>
    have htail : renderAll (listing n [] tail) = tail := by
      simp [listing, renderAll, Tree.render]
    rw [htail]
    exact .done (not_start_infix_append n (whole_of_not_mem tail.2)
      (not_start_infix_text n tail.2) hepilogue)
  | cons item items ih =>
    have hblock := Blocks.block (not_start_infix_text n item.1.2)
      (balanced_renderAll n item.2) ih
    rw [renderAll_listing_cons]
    simpa only [List.map_cons, List.append_assoc] using hblock

theorem Blocks.append_left {n : Name} {inners : List (List Char)} {r s : List Char}
    (hw : Whole '<' '>' r) (hr : ¬ n.start.word <:+: r) (h : Blocks n inners s) :
    Blocks n inners (r ++ s) := by
  cases h with
  | done h => exact .done (not_start_infix_append n hw hr h)
  | block hgap hinner rest =>
    rw [← List.append_assoc]
    exact .block (not_start_infix_append n hw hr hgap) hinner rest

/-- The text of an element stands between two texts. -/
def enclosed (before : List Char) (name : Name) (children : List Tree) (after : List Char) :
    List Char :=
  before ++ (name.start.word ++ (renderAll children ++ (name.close.word ++ after)))

theorem blocks_enclosed {n name : Name} {before after : List Char} (hne : name ≠ n)
    (hbefore : ¬ n.start.word <:+: before) (hafter : ¬ n.start.word <:+: after) (tail : CharData)
    (items : List (CharData × List Tree)) :
    Blocks n (items.map fun item => renderAll item.2)
      (enclosed before name (listing n items tail) after) := by
  have hstart : n.start.word ≠ name.start.word := fun h => hne (Name.start_inj h).symm
  have hopen := not_start_infix_append_tag n hbefore hstart
  have hlisting := blocks_listing tail (not_start_infix_append n name.close.whole
    (not_start_infix_tag n Name.start_ne_close) hafter) items
  have happend := hlisting.append_left (name.start.whole_append before) hopen
  rwa [List.append_assoc] at happend

end Blocks

end Xml
