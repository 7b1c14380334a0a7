import Mathlib.Tactic.Ring
import Flydocs.Bbox.Words
import Flydocs.Foundation.PythonText
import Flydocs.Foundation.Tiling
import Flydocs.Foundation.Traverse

/-!
# Tokens of a phrase

Docling boxes whole phrases.  The width of a box is shared among the tokens by
their numbers of characters, from left to right, so the boxes of the tokens tile
the box of the phrase.
-/

namespace Flydocs

open Foundation

namespace Bbox

structure LayoutWord extends Word where
  page : Int
  tableId : Option String := none
  rowIdx : Option Int := none
  colIdx : Option Int := none
  deriving DecidableEq

/-- The arguments of `_tokenize_phrase` but the text. -/
structure Phrase where
  page : Int
  xmin : Rat
  ymin : Rat
  xmax : Rat
  ymax : Rat
  readingOrder : Option Int := none
  tableId : Option String := none
  rowIdx : Option Int := none
  colIdx : Option Int := none

namespace Phrase

variable (phrase : Phrase)

def word (text : String) (xmin xmax : Rat) : LayoutWord where
  text := text
  page := phrase.page
  xmin := xmin
  ymin := phrase.ymin
  xmax := xmax
  ymax := phrase.ymax
  readingOrder := phrase.readingOrder
  tableId := phrase.tableId
  rowIdx := phrase.rowIdx
  colIdx := phrase.colIdx

/-- The right edge of a token, where `rest` are the tokens behind it. -/
def tokXmax (totalChars : Nat) (cursor : Rat) (token : String)
    (rest : List String) : Rat :=
  if rest = [] then phrase.xmax
  else min phrase.xmax
    (cursor + (phrase.xmax - phrase.xmin) * token.length / totalChars)

def tokenizeFrom (totalChars : Nat) : Rat → List String → List LayoutWord
  | _, [] => []
  | cursor, token :: rest =>
      let edge := phrase.tokXmax totalChars cursor token rest
      if edge ≤ cursor then tokenizeFrom totalChars edge rest
      else phrase.word token cursor edge :: tokenizeFrom totalChars edge rest

def tokenizePhrase (text : String) : List LayoutWord :=
  let tokens := PythonText.split text
  if tokens = [] then []
  else
    let totalChars := (tokens.map String.length).sum
    if totalChars ≤ 0 then []
    else phrase.tokenizeFrom totalChars phrase.xmin tokens

def edgeAt (totalChars count : Nat) : Rat :=
  phrase.xmin + (phrase.xmax - phrase.xmin) * count / totalChars

variable {phrase}

theorem edgeAt_lt (hlt : phrase.xmin < phrase.xmax) {totalChars first second : Nat}
    (htotal : 0 < totalChars) (h : first < second) :
    phrase.edgeAt totalChars first < phrase.edgeAt totalChars second := by
  have hwidth : 0 < phrase.xmax - phrase.xmin := sub_pos.mpr hlt
  have htotal' : (0 : Rat) < totalChars := by exact_mod_cast htotal
  unfold edgeAt
  gcongr

theorem edgeAt_total {totalChars : Nat} (htotal : 0 < totalChars) :
    phrase.edgeAt totalChars totalChars = phrase.xmax := by
  have hne : (totalChars : Rat) ≠ 0 := by exact_mod_cast htotal.ne'
  rw [edgeAt, mul_div_cancel_right₀ _ hne]
  ring

/-- The cursor stands behind the characters before it, so neither the clamp nor
the snap moves an edge. -/
theorem tokXmax_eq (hlt : phrase.xmin < phrase.xmax) {totalChars count : Nat}
    {token : String} {rest : List String} (htotal : 0 < totalChars)
    (hrest : ∀ other ∈ rest, other ≠ "")
    (hcount : count + (token.length + (rest.map String.length).sum) =
      totalChars) :
    phrase.tokXmax totalChars (phrase.edgeAt totalChars count) token rest =
      phrase.edgeAt totalChars (count + token.length) := by
  unfold tokXmax
  cases rest with
  | nil =>
      simp only [List.map_nil, List.sum_nil, Nat.add_zero] at hcount
      rw [if_pos rfl, hcount, edgeAt_total htotal]
  | cons next rest =>
      have hnext : 0 < next.length := by
        rw [Nat.pos_iff_ne_zero, Ne, String.length_eq_zero_iff]
        exact hrest next (by simp)
      simp only [List.map_cons, List.sum_cons] at hcount
      have hsum : phrase.edgeAt totalChars count +
          (phrase.xmax - phrase.xmin) * token.length / totalChars =
            phrase.edgeAt totalChars (count + token.length) := by
        unfold edgeAt
        push_cast
        ring
      have hle : phrase.edgeAt totalChars (count + token.length) ≤
          phrase.xmax := by
        rw [← edgeAt_total htotal]
        exact (edgeAt_lt hlt htotal (by omega)).le
      rw [if_neg (by simp), hsum, min_eq_right hle]

/-- One token for one word, with all that the phrase says about it. -/
def IsToken (phrase : Phrase) (totalChars : Nat) (token : String)
    (word : LayoutWord) : Prop :=
  word = phrase.word token word.xmin word.xmax ∧
    word.xmax - word.xmin =
      (phrase.xmax - phrase.xmin) * token.length / totalChars

theorem tokenizeFrom_spec (hlt : phrase.xmin < phrase.xmax)
    {totalChars : Nat} (htotal : 0 < totalChars) {tokens : List String}
    {count : Nat} (htokens : ∀ token ∈ tokens, token ≠ "")
    (hcount : count + (tokens.map String.length).sum = totalChars) :
    let words := phrase.tokenizeFrom totalChars (phrase.edgeAt totalChars count)
      tokens
    List.Forall₂ (phrase.IsToken totalChars) tokens words ∧
      Tiles (phrase.edgeAt totalChars count)
        (words.map fun word => (word.xmin, word.xmax)) phrase.xmax := by
  induction tokens generalizing count with
  | nil =>
      have hend : phrase.edgeAt totalChars count = phrase.xmax := by
        rw [← edgeAt_total htotal, ← hcount]
        simp
      exact ⟨.nil, hend ▸ .nil _⟩
  | cons token rest ih =>
      rw [List.forall_mem_cons] at htokens
      rw [List.map_cons, List.sum_cons] at hcount
      have htoken : 0 < token.length := by
        rw [Nat.pos_iff_ne_zero, Ne, String.length_eq_zero_iff]
        exact htokens.1
      have hedge := edgeAt_lt hlt htotal
        (show count < count + token.length by omega)
      obtain ⟨hwords, htiles⟩ := ih htokens.2
        (show count + token.length + (rest.map String.length).sum = totalChars
          by omega)
      simp only [tokenizeFrom, tokXmax_eq hlt htotal htokens.2 hcount,
        if_neg hedge.not_ge]
      refine ⟨.cons ⟨rfl, ?_⟩ hwords, .cons hedge htiles⟩
      simp only [word, edgeAt]
      push_cast
      ring

theorem map_text_of_isToken {totalChars : Nat} {tokens : List String}
    {words : List LayoutWord}
    (h : List.Forall₂ (phrase.IsToken totalChars) tokens words) :
    words.map (fun word => word.text) = tokens := by
  induction h with
  | nil => rfl
  | cons hfirst _ ih =>
      rw [List.map_cons, ih, hfirst.1]
      rfl

theorem tokenizePhrase_spec (hlt : phrase.xmin < phrase.xmax) {text : String}
    (htokens : PythonText.split text ≠ []) :
    List.Forall₂
        (phrase.IsToken ((PythonText.split text).map String.length).sum)
        (PythonText.split text) (phrase.tokenizePhrase text) ∧
      Tiles phrase.xmin
        ((phrase.tokenizePhrase text).map fun word => (word.xmin, word.xmax))
        phrase.xmax := by
  have hne : ∀ token ∈ PythonText.split text, token ≠ "" :=
    fun token => PythonText.ne_empty_of_mem_split
  have htotal : 0 < ((PythonText.split text).map String.length).sum := by
    obtain ⟨token, rest, hsplit⟩ := List.exists_cons_of_ne_nil htokens
    have htoken : 0 < token.length := by
      rw [Nat.pos_iff_ne_zero, Ne, String.length_eq_zero_iff]
      exact hne token (by simp [hsplit])
    rw [hsplit, List.map_cons, List.sum_cons]
    omega
  have hstart : phrase.edgeAt
      ((PythonText.split text).map String.length).sum 0 = phrase.xmin := by
    simp [edgeAt]
  have hspec := tokenizeFrom_spec hlt htotal hne (Nat.zero_add _)
  rw [hstart] at hspec
  simp only [tokenizePhrase, if_neg htokens, if_neg (not_le.mpr htotal)]
  exact hspec

/-- All tokens in order, with horizontal ranges that tile the phrase in
proportion to their numbers of characters. -/
theorem tokenizePhrase_tiles (phrase : Phrase)
    (hlt : phrase.xmin < phrase.xmax) (text : String)
    (htokens : PythonText.split text ≠ []) :
    (phrase.tokenizePhrase text).map (fun word => word.text) =
      PythonText.split text ∧
    (∀ word ∈ phrase.tokenizePhrase text,
      word = phrase.word word.text word.xmin word.xmax ∧
      word.xmax - word.xmin =
        (phrase.xmax - phrase.xmin) * word.text.length /
          (((PythonText.split text).map String.length).sum : Nat)) ∧
    Tiles phrase.xmin
      ((phrase.tokenizePhrase text).map fun word => (word.xmin, word.xmax))
      phrase.xmax ∧
    ((phrase.tokenizePhrase text).Pairwise fun first second =>
      first.xmax ≤ second.xmin) ∧
    ∀ point, (∃ word ∈ phrase.tokenizePhrase text,
      word.xmin ≤ point ∧ point ≤ word.xmax) ↔
        phrase.xmin ≤ point ∧ point ≤ phrase.xmax := by
  obtain ⟨hwords, htiles⟩ := tokenizePhrase_spec hlt htokens
  have hcovers := htiles.covers hlt
  have hpairwise := htiles.pairwise
  rw [List.pairwise_map] at hpairwise
  simp only [List.mem_map, exists_exists_and_eq_and] at hcovers
  refine ⟨map_text_of_isToken hwords, fun word hword => ?_, htiles, hpairwise,
    hcovers⟩
  obtain ⟨token, -, hword, hwidth⟩ := exists_of_forall₂ hwords hword
  obtain rfl : word.text = token := by rw [hword]; rfl
  exact ⟨hword, hwidth⟩

theorem tokenizePhrase_tiles_total :
    let words := Phrase.tokenizePhrase
      ⟨1, 1 / 5, 0, 4 / 5, 1, some 3, none, none, none⟩ " Total:  12\t0 "
    words.map (fun word => word.text) = ["Total:", "12", "0"] ∧
      Tiles (1 / 5) (words.map fun word => (word.xmin, word.xmax)) (4 / 5) := by
  have h := tokenizePhrase_tiles
    ⟨1, 1 / 5, 0, 4 / 5, 1, some 3, none, none, none⟩ (by decide +kernel)
    " Total:  12\t0 " (by decide)
  exact ⟨h.1, h.2.2.1⟩

/-! ## The boxes of the tokens -/

theorem unionBbox_eq {words : List Word} {xmin ymin xmax ymax : Rat}
    (hwords : ∀ word ∈ words, xmin ≤ word.xmin ∧ word.xmax ≤ xmax ∧
      word.ymin = ymin ∧ word.ymax = ymax)
    (hleft : ∃ word ∈ words, word.xmin = xmin)
    (hright : ∃ word ∈ words, word.xmax = xmax) (score : Rat) (page : Int) :
    unionBbox words score page =
      some ⟨page, xmin, ymin, xmax, ymax, roundScore score⟩ := by
  obtain ⟨first, hfirst, hleft⟩ := hleft
  obtain ⟨last, hlast, hright⟩ := hright
  have hmin : ∀ {key : Word → Rat} {edge : Rat} {word : Word}, word ∈ words →
      key word = edge → (∀ other ∈ words, edge ≤ key other) →
      (words.map key).min? = some edge := by
    intro key edge word hword hkey hle
    exact List.min?_eq_some_iff.mpr ⟨List.mem_map.mpr ⟨word, hword, hkey⟩,
      by simpa using hle⟩
  have hmax : ∀ {key : Word → Rat} {edge : Rat} {word : Word}, word ∈ words →
      key word = edge → (∀ other ∈ words, key other ≤ edge) →
      (words.map key).max? = some edge := by
    intro key edge word hword hkey hle
    exact List.max?_eq_some_iff.mpr ⟨List.mem_map.mpr ⟨word, hword, hkey⟩,
      by simpa using hle⟩
  rw [unionBbox, hmin hfirst hleft fun word hword => (hwords word hword).1,
    hmin hfirst (hwords first hfirst).2.2.1 fun word hword =>
      (hwords word hword).2.2.1.ge,
    hmax hlast hright fun word hword => (hwords word hword).2.1,
    hmax hfirst (hwords first hfirst).2.2.2 fun word hword =>
      (hwords word hword).2.2.2.le]
  rfl

theorem unionBbox_tokenizePhrase (hlt : phrase.xmin < phrase.xmax)
    {text : String} (htokens : PythonText.split text ≠ []) (score : Rat)
    (page : Int) :
    unionBbox ((phrase.tokenizePhrase text).map LayoutWord.toWord) score page =
      some ⟨page, phrase.xmin, phrase.ymin, phrase.xmax, phrase.ymax,
        roundScore score⟩ := by
  obtain ⟨hwords, htiles⟩ := tokenizePhrase_spec hlt htokens
  obtain ⟨⟨_, hstart, hleft⟩, ⟨_, hstop, hright⟩⟩ := htiles.exists_edges hlt
  obtain ⟨first, hfirst, rfl⟩ := List.mem_map.mp hstart
  obtain ⟨last, hlast, rfl⟩ := List.mem_map.mp hstop
  refine unionBbox_eq (List.forall_mem_map.mpr fun word hword => ?_)
    ⟨_, List.mem_map_of_mem hfirst, hleft⟩
    ⟨_, List.mem_map_of_mem hlast, hright⟩ score page
  obtain ⟨hlow, -, hhigh⟩ := htiles.bounds _ (List.mem_map_of_mem hword)
  obtain ⟨token, -, hvalue, -⟩ := exists_of_forall₂ hwords hword
  refine ⟨hlow, hhigh, ?_⟩
  rw [hvalue]
  exact ⟨rfl, rfl⟩

theorem framed_of_mem_tokenizePhrase
    (hphrase : Framed phrase.xmin phrase.ymin phrase.xmax phrase.ymax)
    {text : String} {word : LayoutWord}
    (hword : word ∈ phrase.tokenizePhrase text) : word.toWord.Framed := by
  by_cases htokens : PythonText.split text = []
  · rw [tokenizePhrase, htokens] at hword
    cases hword
  obtain ⟨hwords, htiles⟩ := tokenizePhrase_spec hphrase.width htokens
  obtain ⟨hleft, hwidth, hright⟩ := htiles.bounds _
    (List.mem_map_of_mem hword)
  obtain ⟨token, -, hvalue, -⟩ := exists_of_forall₂ hwords hword
  rw [hvalue] at hleft hwidth hright ⊢
  exact {
    left := hphrase.left.trans hleft
    width := hwidth
    right := hright.trans hphrase.right
    top := hphrase.top
    height := hphrase.height
    bottom := hphrase.bottom }

end Phrase

end Bbox

end Flydocs
