import Mathlib.Data.String.Basic
import Flydocs.Foundation.FirstGreatest
import Flydocs.Foundation.SmallestFirst
import Flydocs.Transformations.Raises

/-!
# The parts-of-whole invariant

The repair of rows whose shares exceed the whole drops as few rows as it can,
always the least trustworthy ones first.
-/

namespace Flydocs

open Foundation Dtos Transformations

namespace LlmTransformer

/-! ## The order of the victims -/

namespace VictimKey

def ordering (key : VictimKey) : Nat ×ₗ Rat ×ₗ Nat ×ₗ String :=
  toLex (key.unmatched, toLex (key.confidence, toLex (key.tokens, key.joined)))

theorem ordering_injective : Function.Injective ordering := by
  rintro ⟨_, _, _, _⟩ ⟨_, _, _, _⟩ h
  simpa [ordering] using h

instance : LinearOrder VictimKey :=
  LinearOrder.lift' ordering ordering_injective

@[simp] theorem lt_eq_true_iff {first second : VictimKey} :
    first.lt second = true ↔ first < second :=
  tuple_lt_iff (tuple_lt_iff (tuple_lt_iff decide_eq_true_iff))

@[simp] theorem lt_eq_false_iff {first second : VictimKey} :
    first.lt second = false ↔ second ≤ first := by
  rw [← not_lt, ← lt_eq_true_iff, Bool.not_eq_true]

end VictimKey

variable (text : TextRuntime) (shares : ShareArithmetic)

/-! ## Shares -/

def FiniteShares (shareField : String) (rows : List ExtractedField) : Prop :=
  ∀ row ∈ rows, ∃ share, rowShare shares shareField row = .ok share

def shareOf (shareField : String) (row : ExtractedField) : shares.Share :=
  match rowShare shares shareField row with
  | .ok share => share
  | .error _ => shares.zero

/-- The total of the shares, rounded to six decimals. -/
def shareSum (shareField : String) (rows : List ExtractedField) :
    shares.Share :=
  shares.total (rows.map (shareOf shares shareField))

/-- No row has to go: the shares are within the limit, or one row is left. -/
def Fits (shareField : String) (limit : shares.Share)
    (rows : List ExtractedField) : Prop :=
  ¬ shares.exceeds (shareSum shares shareField rows) limit ∨ rows.length ≤ 1

def LeastDrops (invariant : PartsOfWholeInvariant) (rows : List ExtractedField)
    (count : Nat) : Prop :=
  IsLeast {count | Fits shares invariant.shareField (shares.limit invariant)
    (SmallestFirst.without (victimKey text) count rows)} count

/-- What the repair keeps of rows: all of them if their sum is within the limit
or a violation is only warned of, and else what is left when the smallest rows
by the victim key are dropped, as few as make the rest fit. -/
structure Enforced (invariant : PartsOfWholeInvariant)
    (rows kept : List ExtractedField) : Prop where
  unchanged : shares.within (shareSum shares invariant.shareField rows)
      (shares.limit invariant) ∨
    invariant.onViolation = .warn → kept = rows
  dropped : ¬ shares.within (shareSum shares invariant.shareField rows)
      (shares.limit invariant) →
    invariant.onViolation = .repair → ∃ count,
      LeastDrops text shares invariant rows count ∧
      kept = SmallestFirst.without (victimKey text) count rows

section

variable {text : TextRuntime} {shares : ShareArithmetic}

theorem sumShares_eq {shareField : String} {rows : List ExtractedField}
    (h : FiniteShares shares shareField rows) :
    sumShares shares shareField rows =
      .ok (shareSum shares shareField rows) := by
  have hshares : rows.mapM (rowShare shares shareField) =
      .ok (rows.map (shareOf shares shareField)) := by
    rw [mapM_eq_ok_iff, List.forall₂_map_right_iff, List.forall₂_same]
    intro row hrow
    obtain ⟨share, hshare⟩ := h row hrow
    rw [shareOf, hshare]
  rw [sumShares, hshares]
  rfl

/-! ## The victim -/

theorem exists_victim (text : TextRuntime) {rows : List ExtractedField}
    (hne : rows ≠ []) :
    ∃ before victim after, rows = before ++ victim :: after ∧
      SmallestFirst.FirstLeast (victimKey text) before victim after ∧
      victimIndex text rows = before.length := by
  obtain ⟨before, victim, after, rfl, hleast⟩ :=
    SmallestFirst.exists_firstLeast (victimKey text) hne
  refine ⟨before, victim, after, rfl, hleast, ?_⟩
  have hfound : ((before ++ victim :: after).map (victimKey text)).findIdx?
      (fun key => ((before ++ victim :: after).map (victimKey text)).all
        fun other => !other.lt key) = some before.length := by
    rw [List.findIdx?_eq_some_iff_getElem]
    refine ⟨by simp, ?_, ?_⟩
    · have hkeys : ∀ other ∈ before ++ victim :: after,
          victimKey text victim ≤ victimKey text other := by
        intro other hother
        rcases List.mem_append.mp hother with hmem | hmem
        · exact (hleast.before other hmem).le
        · rcases List.mem_cons.mp hmem with rfl | hmem
          · exact le_rfl
          · exact hleast.after other hmem
      simpa [or_imp, forall_and] using hkeys
    · intro index hindex
      have hbefore : before[index] ∈ before := List.getElem_mem hindex
      simp only [List.getElem_map, List.getElem_append_left hindex,
        List.all_eq_true, not_forall]
      refine ⟨victimKey text victim, by simp, ?_⟩
      simpa using hleast.before _ hbefore
  rw [victimIndex, hfound, Option.getD_some]

/-! ## The loop -/

theorem dropVictims_spec {shareField : String} (limit : shares.Share)
    {fuel : Nat} {rows : List ExtractedField} (hfuel : rows.length ≤ fuel)
    (hfinite : FiniteShares shares shareField rows) :
    ∃ count,
      dropVictims text shares shareField limit fuel rows =
        .ok (SmallestFirst.without (victimKey text) count rows) ∧
      IsLeast {count | Fits shares shareField limit
        (SmallestFirst.without (victimKey text) count rows)} count := by
  induction fuel generalizing rows with
  | zero =>
      have hempty : Fits shares shareField limit rows := .inr (by omega)
      exact ⟨0, by rw [SmallestFirst.without_zero]; rfl,
        SmallestFirst.isLeast_zero hempty⟩
  | succ fuel ih =>
      simp only [dropVictims, sumShares_eq hfinite, bind, Except.bind]
      by_cases hover : shares.exceeds (shareSum shares shareField rows) limit ∧
          1 < rows.length
      · rw [if_pos hover]
        have hne : rows ≠ [] := by
          rintro rfl
          simp at hover
        have hfits : ¬ Fits shares shareField limit rows := by
          simpa [Fits] using hover
        obtain ⟨before, victim, after, rfl, hleast, hindex⟩ :=
          exists_victim text hne
        have herase : (before ++ victim :: after).eraseIdx before.length =
            before ++ after := by
          rw [List.eraseIdx_append_of_length_le le_rfl, Nat.sub_self,
            List.eraseIdx_cons_zero]
        rw [hindex, herase]
        have hshorter : (before ++ after).length ≤ fuel := by
          simp only [List.length_append, List.length_cons] at hfuel ⊢
          omega
        have hrest : FiniteShares shares shareField (before ++ after) := by
          intro row hrow
          refine hfinite row ?_
          simp only [List.mem_append, List.mem_cons] at hrow ⊢
          exact hrow.imp_right .inr
        obtain ⟨count, hkept, hcount⟩ := ih hshorter hrest
        exact ⟨count + 1, by rw [hkept, SmallestFirst.without_succ hleast],
          SmallestFirst.isLeast_succ hleast hfits hcount⟩
      · rw [if_neg hover]
        have hfits : Fits shares shareField limit rows := by
          unfold Fits
          by_contra hnot
          exact hover (by simpa using hnot)
        exact ⟨0, by rw [SmallestFirst.without_zero]; rfl,
          SmallestFirst.isLeast_zero hfits⟩

theorem exists_enforced (text : TextRuntime)
    {invariant : PartsOfWholeInvariant} {rows : List ExtractedField}
    (hfinite : FiniteShares shares invariant.shareField rows) :
    ∃ kept, enforceInvariant text shares invariant rows = .ok kept ∧
      Enforced text shares invariant rows kept := by
  simp only [enforceInvariant, sumShares_eq hfinite, bind, Except.bind]
  by_cases hwithin : shares.within
      (shareSum shares invariant.shareField rows) (shares.limit invariant)
  · rw [if_pos hwithin]
    exact ⟨rows, rfl, fun _ => rfl, fun hover => absurd hwithin hover⟩
  · rw [if_neg hwithin]
    cases hviolation : invariant.onViolation with
    | warn =>
        refine ⟨rows, rfl, fun _ => rfl, fun _ hrepair => ?_⟩
        rw [hviolation] at hrepair
        cases hrepair
    | repair =>
        obtain ⟨count, hkept, hcount⟩ :=
          dropVictims_spec (shares.limit invariant) le_rfl hfinite
        refine ⟨_, hkept, ?_, fun _ _ => ⟨count, hcount, rfl⟩⟩
        rintro (hle | hwarn)
        · exact absurd hle hwithin
        · rw [hviolation] at hwarn
          cases hwarn

end

/--
The repair of rows with finite shares returns: what it drops are the smallest
rows by the victim key, and no more of them than it has to.
-/
theorem enforceInvariant_enforced (invariant : PartsOfWholeInvariant)
    (rows : List ExtractedField)
    (hfinite : FiniteShares (.exact text) invariant.shareField rows) :
    ∃ kept, enforceInvariant text (.exact text) invariant rows = .ok kept ∧
      Enforced text (.exact text) invariant rows kept :=
  exists_enforced text hfinite

def shareRow (share : Rat) : ExtractedField where
  name := "row_1"
  value := .list [{ name := "share", value := .float share }]

theorem enforceInvariant_enforced_twoRows :
    ∃ kept, enforceInvariant .ascii (.exact .ascii) { shareField := "share" }
        [shareRow 60, shareRow 50] = .ok kept ∧
      Enforced .ascii (.exact .ascii) { shareField := "share" }
        [shareRow 60, shareRow 50] kept :=
  enforceInvariant_enforced .ascii { shareField := "share" }
    [shareRow 60, shareRow 50] (by
      intro row hrow
      simp only [List.mem_cons, List.not_mem_nil, or_false] at hrow
      obtain rfl | rfl := hrow
      · exact ⟨60, rfl⟩
      · exact ⟨50, rfl⟩)

end LlmTransformer

end Flydocs
