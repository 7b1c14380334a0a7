import Mathlib.Data.Multiset.MapFold
import Flydocs.Foundation.Ties
import Flydocs.Transformations.Invariant

/-!
# Ties between victims

The victim key leaves out the numbers of a row, its share among them.  Rows with
one key are dropped in the order of the list, and where the drops end between
two of them that order decides which row is kept.  Where the sum of the shares
depends on their order, so does the number of drops.
-/

namespace Flydocs

open Foundation Dtos Transformations SmallestFirst

namespace LlmTransformer

variable (text : TextRuntime) (shares : ShareArithmetic)

/-- The rows that the repair keeps, whatever their order. -/
def keptRows (invariant : PartsOfWholeInvariant) (rows : List ExtractedField) :
    Except PyError (Multiset ExtractedField) :=
  (enforceInvariant text shares invariant rows).map fun kept => kept

/-- Every order of the rows needs the same number of drops, and in no order that
the victim key allows do these end between two rows of a key that different rows
have. -/
def NoTieDecides (invariant : PartsOfWholeInvariant)
    (rows : List ExtractedField) : Prop :=
  invariant.onViolation = .repair →
  FiniteShares shares invariant.shareField rows →
  ∃ count,
    (∀ permuted : List ExtractedField, permuted.Perm rows →
      LeastDrops text shares invariant permuted count) ∧
    ∀ arranged, Arranges (victimKey text) rows arranged →
      Untied (victimKey text) rows arranged count

section

variable {text : TextRuntime} {shares : ShareArithmetic}
  {invariant : PartsOfWholeInvariant} {rows : List ExtractedField}

/-! ## Shares that overflow -/

theorem error_of_rowShare {shareField : String} {row : ExtractedField}
    {raised : PyError} (h : rowShare shares shareField row = .error raised) :
    raised = .overflowError := by
  unfold rowShare at h
  split at h
  · exact shares.overflows h
  · cases h

theorem error_of_sumShares {shareField : String} {raised : PyError}
    (h : sumShares shares shareField rows = .error raised) :
    raised = .overflowError := by
  obtain ⟨row, -, hrow⟩ : ∃ row ∈ rows,
      rowShare shares shareField row = .error raised := by
    apply exists_mem_of_mapM_error
    unfold sumShares at h
    cases hshares : rows.mapM (rowShare shares shareField) with
    | error other =>
        rw [hshares] at h
        cases h
        rfl
    | ok values =>
        rw [hshares] at h
        cases h
  exact error_of_rowShare hrow

theorem enforceInvariant_of_not_finite
    (h : ¬ FiniteShares shares invariant.shareField rows) :
    enforceInvariant text shares invariant rows = .error .overflowError := by
  cases hsum : sumShares shares invariant.shareField rows with
  | ok total => exact absurd (sumShares_ok_iff.mp ⟨total, hsum⟩) h
  | error raised =>
      rw [enforceInvariant, hsum, error_of_sumShares hsum]
      rfl

theorem FiniteShares.perm {shareField : String} {permuted : List ExtractedField}
    (h : FiniteShares shares shareField rows) (hperm : permuted.Perm rows) :
    FiniteShares shares shareField permuted :=
  fun row hrow => h row (hperm.mem_iff.mp hrow)

/-! ## One order -/

theorem LeastDrops.unique {count other : Nat}
    (h : LeastDrops text shares invariant rows count)
    (hother : LeastDrops text shares invariant rows other) : count = other :=
  IsLeast.unique h hother

theorem LeastDrops.le {count : Nat}
    (h : LeastDrops text shares invariant rows count) :
    count ≤ rows.length - 1 := by
  refine h.2 (.inr ?_)
  have hperm : (without (victimKey text) (rows.length - 1) rows).Perm
      ((order (victimKey text) rows).drop (rows.length - 1)) :=
    without_perm _ rows
  rw [hperm.length_eq, List.length_drop, order, List.length_insertionSort]
  omega

/-- The repair keeps what comes last in the order of the victim key. -/
theorem exists_keptRows (text : TextRuntime)
    (hrepair : invariant.onViolation = .repair)
    (hfinite : FiniteShares shares invariant.shareField rows) :
    ∃ count, LeastDrops text shares invariant rows count ∧
      keptRows text shares invariant rows =
        .ok ((order (victimKey text) rows).drop count :
          List ExtractedField) := by
  obtain ⟨kept, hkept, henforced⟩ := exists_enforced text hfinite
  suffices hleast : ∃ count, LeastDrops text shares invariant rows count ∧
      kept = without (victimKey text) count rows by
    obtain ⟨count, hcount, rfl⟩ := hleast
    refine ⟨count, hcount, ?_⟩
    rw [keptRows, hkept]
    exact congrArg Except.ok (Multiset.coe_eq_coe.mpr (without_perm count rows))
  by_cases hwithin : shares.within
      (shareSum shares invariant.shareField rows) (shares.limit invariant)
  · have hfits : ¬ shares.exceeds
        (shareSum shares invariant.shareField rows) (shares.limit invariant) :=
      Bool.not_eq_true _ ▸ shares.not_exceeds hwithin
    obtain rfl := henforced.unchanged (.inl hwithin)
    exact ⟨0, isLeast_zero (.inl hfits), (without_zero kept).symm⟩
  · exact henforced.dropped hwithin hrepair

/-! ## Every order -/

theorem keptRows_of_warn (hwarn : invariant.onViolation = .warn)
    (hfinite : FiniteShares shares invariant.shareField rows) :
    keptRows text shares invariant rows =
      .ok (rows : Multiset ExtractedField) := by
  obtain ⟨kept, hkept, henforced⟩ := exists_enforced text hfinite
  rw [keptRows, hkept, henforced.unchanged (.inr hwarn)]
  rfl

theorem arranges_order {permuted : List ExtractedField}
    (hperm : permuted.Perm rows) :
    Arranges (victimKey text) rows (order (victimKey text) permuted) :=
  ⟨(List.perm_insertionSort _ permuted).trans hperm,
    List.pairwise_insertionSort _ permuted⟩

theorem leastDrops_of_alike (hrepair : invariant.onViolation = .repair)
    (hfinite : FiniteShares shares invariant.shareField rows) {count : Nat}
    (hcount : LeastDrops text shares invariant rows count)
    {permuted : List ExtractedField} (hperm : permuted.Perm rows)
    (hkept : keptRows text shares invariant permuted =
      keptRows text shares invariant rows) :
    LeastDrops text shares invariant permuted count := by
  obtain ⟨count', hcount', hpermuted⟩ :=
    exists_keptRows text hrepair (hfinite.perm hperm)
  obtain ⟨least, hleast, hrows⟩ :=
    exists_keptRows text hrepair hfinite
  obtain rfl := hcount.unique hleast
  rw [hpermuted, hrows, Except.ok.injEq, Multiset.coe_eq_coe] at hkept
  have hlength := hkept.length_eq
  rw [List.length_drop, List.length_drop, order, order,
    List.length_insertionSort, List.length_insertionSort,
    hperm.length_eq] at hlength
  have hle := hcount.le
  have hle' := hcount'.le
  rw [hperm.length_eq] at hle'
  obtain rfl : count' = count := by omega
  exact hcount'

theorem keptRows_of_arranges (hrepair : invariant.onViolation = .repair)
    {arranged : List ExtractedField} {count : Nat}
    (hfinite : FiniteShares shares invariant.shareField arranged)
    (hsorted : arranged.Pairwise fun first second =>
      victimKey text first ≤ victimKey text second)
    (hcount : LeastDrops text shares invariant arranged count) :
    keptRows text shares invariant arranged =
      .ok (arranged.drop count : List ExtractedField) := by
  obtain ⟨least, hleast, hkept⟩ := exists_keptRows text hrepair hfinite
  obtain rfl := hcount.unique hleast
  have horder : order (victimKey text) arranged = arranged :=
    hsorted.insertionSort_eq
  rwa [horder] at hkept

/-- The same rows are kept in every order where equally many go in each of them
and no tie decides. -/
theorem alike_iff (hrepair : invariant.onViolation = .repair)
    (hfinite : FiniteShares shares invariant.shareField rows) :
    (∀ permuted : List ExtractedField, permuted.Perm rows →
      keptRows text shares invariant permuted =
        keptRows text shares invariant rows) ↔
      ∃ count,
        (∀ permuted : List ExtractedField, permuted.Perm rows →
          LeastDrops text shares invariant permuted count) ∧
        ∀ arranged, Arranges (victimKey text) rows arranged →
          Untied (victimKey text) rows arranged count := by
  constructor
  · intro halike
    obtain ⟨count, hcount, -⟩ := exists_keptRows text hrepair hfinite
    have hleast : ∀ permuted : List ExtractedField, permuted.Perm rows →
        LeastDrops text shares invariant permuted count :=
      fun permuted hperm =>
        leastDrops_of_alike hrepair hfinite hcount hperm (halike permuted hperm)
    refine ⟨count, hleast, alike_iff_untied.mp ?_⟩
    intro arranged other harranged hother
    have hfirst := keptRows_of_arranges hrepair (hfinite.perm harranged.perm)
      harranged.sorted (hleast arranged harranged.perm)
    have hsecond := keptRows_of_arranges hrepair (hfinite.perm hother.perm)
      hother.sorted (hleast other hother.perm)
    rw [halike arranged harranged.perm] at hfirst
    rw [halike other hother.perm] at hsecond
    exact Multiset.coe_eq_coe.mp (Except.ok.inj (hfirst.symm.trans hsecond))
  · rintro ⟨count, hleast, huntied⟩ permuted hperm
    obtain ⟨first, hfirst, hpermuted⟩ :=
      exists_keptRows text hrepair (hfinite.perm hperm)
    obtain ⟨second, hsecond, hrows⟩ :=
      exists_keptRows text hrepair hfinite
    obtain rfl := hfirst.unique (hleast permuted hperm)
    obtain rfl := hsecond.unique (hleast rows (List.Perm.refl rows))
    rw [hpermuted, hrows, Except.ok.injEq, Multiset.coe_eq_coe]
    exact alike_iff_untied.mpr huntied _ _ (arranges_order hperm)
      (arranges_order (List.Perm.refl rows))

end

/--
The repair keeps the same rows of every permutation of a list exactly when the
number of drops does not depend on their order and it never has to choose
between different rows of one victim key.
-/
theorem keptRows_perm_iff (invariant : PartsOfWholeInvariant)
    (rows : List ExtractedField) :
    (∀ permuted : List ExtractedField, permuted.Perm rows →
      keptRows text shares invariant permuted =
        keptRows text shares invariant rows) ↔
      NoTieDecides text shares invariant rows := by
  by_cases hfinite : FiniteShares shares invariant.shareField rows
  · cases hviolation : invariant.onViolation with
    | warn =>
        refine iff_of_true (fun permuted hperm => ?_) fun hrepair => ?_
        · rw [keptRows_of_warn hviolation (hfinite.perm hperm),
            keptRows_of_warn hviolation hfinite]
          exact congrArg Except.ok (Multiset.coe_eq_coe.mpr hperm)
        · rw [hviolation] at hrepair
          cases hrepair
    | repair =>
        rw [alike_iff hviolation hfinite]
        exact ⟨fun h _ _ => h, fun h => h hviolation hfinite⟩
  · refine iff_of_true (fun permuted hperm => ?_)
      fun _ hshares => absurd hshares hfinite
    have hpermuted : ¬ FiniteShares shares invariant.shareField permuted :=
      fun hshares => hfinite (hshares.perm hperm.symm)
    rw [keptRows, keptRows, enforceInvariant_of_not_finite hfinite,
      enforceInvariant_of_not_finite hpermuted]

/-! ## Two rows of one key -/

def doubles : ShareArithmetic := .double fun _ => none

def keptShares (rows : List ExtractedField) : Except PyError (List Rat) :=
  (enforceInvariant .ascii doubles { shareField := "share" } rows).map
    (List.map (shareOf (.exact .ascii) "share"))

theorem map_keptRows (rows : List ExtractedField) :
    (keptRows .ascii doubles { shareField := "share" } rows).map
        (Multiset.map (shareOf (.exact .ascii) "share")) =
      (keptShares rows).map fun shares => (shares : Multiset Rat) := by
  unfold keptRows keptShares
  cases enforceInvariant .ascii doubles { shareField := "share" } rows <;> rfl

theorem not_keptRows_perm :
    ¬ ∀ (text : TextRuntime) (parse : String → Option Float)
      (invariant : PartsOfWholeInvariant)
      (rows permuted : List ExtractedField), permuted.Perm rows →
      keptRows text (.double parse) invariant permuted =
        keptRows text (.double parse) invariant rows := by
  intro h
  have hfirst : keptShares [shareRow 60, shareRow 50] = .ok [50] := by
    decide +kernel
  have hsecond : keptShares [shareRow 50, shareRow 60] = .ok [60] := by
    decide +kernel
  have hsame := h .ascii (fun _ => none) { shareField := "share" }
    [shareRow 60, shareRow 50] [shareRow 50, shareRow 60] (List.Perm.swap _ _ _)
  have hshares := congrArg
    (Except.map (Multiset.map (shareOf (.exact .ascii) "share"))) hsame
  change (keptRows .ascii doubles _ _).map _ =
    (keptRows .ascii doubles _ _).map _ at hshares
  rw [map_keptRows, map_keptRows, hfirst, hsecond] at hshares
  have hperm : ([60] : List Rat).Perm [50] :=
    Multiset.coe_eq_coe.mp (Except.ok.inj hshares)
  exact absurd (List.perm_singleton.mp hperm) (by decide)

end LlmTransformer

end Flydocs
