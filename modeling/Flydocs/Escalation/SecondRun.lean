import Mathlib.Data.List.Nodup
import Mathlib.Data.List.Pairwise
import Flydocs.Escalation.JudgeEscalator
import Flydocs.Foundation.Traverse

/-!
# What the second run leaves

The groups that the candidate refers to after the second judge, and those of the
tasks themselves, as functions of what extraction and judge answered.
-/

namespace Flydocs

open Foundation Dtos

/-- Tasks whose groups are objects of their own. -/
structure EscalationSession where
  store : List ExtractedFieldGroup
  tasks : List EscalationTask
  bounded : ∀ task ∈ tasks, ObjectStore.Bounded store task.extractedGroups
  distinct : (tasks.flatMap EscalationTask.extractedGroups).Nodup

def EscalationSession.groups (session : EscalationSession)
    (task : EscalationTask) : List ExtractedFieldGroup :=
  ObjectStore.read session.store task.extractedGroups

namespace JudgeEscalator

variable {Raised : Type} (self : JudgeEscalator Raised)
  (request : Dtos.ExtractionRequest) (model : String)

/-! ## Values -/

def candidateGroups (task : EscalationTask)
    (primary : List ExtractedFieldGroup) : List ExtractedFieldGroup :=
  match self.reExtract request model task with
  | .skipped => []
  | .extracted groups => groups
  | .failed => primary

def judged (task : EscalationTask) (groups : List ExtractedFieldGroup) :
    List ExtractedFieldGroup :=
  match self.verdicts request model task groups with
  | some output => groups.map (Judge.applyGroup output)
  | none => groups

def judgedCandidate (task : EscalationTask)
    (primary : List ExtractedFieldGroup) : List ExtractedFieldGroup :=
  self.judged request model task (self.candidateGroups request model task primary)

/-! ## The second judge -/

section

variable {self request model}

theorem read_reJudge {task : EscalationTask} {references : List Nat}
    {store : List ExtractedFieldGroup} (h : references.Nodup) :
    ObjectStore.read (self.reJudge request model store (task, references))
        references =
      self.judged request model task (ObjectStore.read store references) := by
  simp only [reJudge, judged]
  cases self.verdicts request model task
      (ObjectStore.read store references) with
  | none => rfl
  | some output => exact ObjectStore.read_update h

theorem read_reJudge_of_disjoint {entry : EscalationTask × List Nat}
    {others : List Nat} {store : List ExtractedFieldGroup}
    (h : ∀ other ∈ others, other ∉ entry.2) :
    ObjectStore.read (self.reJudge request model store entry) others =
      ObjectStore.read store others := by
  unfold reJudge
  split
  · exact ObjectStore.read_update_of_disjoint h
  · rfl

theorem read_reJudgeAll_of_disjoint {entries : List (EscalationTask × List Nat)}
    {others : List Nat} {store : List ExtractedFieldGroup}
    (h : ∀ other ∈ others, other ∉ entries.flatMap Prod.snd) :
    ObjectStore.read (self.reJudgeAll request model entries store) others =
      ObjectStore.read store others := by
  unfold reJudgeAll
  induction entries generalizing store with
  | nil => rfl
  | cons entry entries ih =>
      simp only [List.flatMap_cons, List.mem_append, not_or] at h
      rw [List.foldl_cons, ih fun other hother => (h other hother).2]
      exact read_reJudge_of_disjoint fun other hother => (h other hother).1

theorem read_reJudgeAll {entries : List (EscalationTask × List Nat)}
    {store : List ExtractedFieldGroup}
    (hnodup : (entries.flatMap Prod.snd).Nodup)
    {entry : EscalationTask × List Nat} (hentry : entry ∈ entries) :
    ObjectStore.read (self.reJudgeAll request model entries store) entry.2 =
      self.judged request model entry.1 (ObjectStore.read store entry.2) := by
  induction entries generalizing store with
  | nil => cases hentry
  | cons first entries ih =>
      rw [List.flatMap_cons, List.nodup_append] at hnodup
      obtain ⟨hfirst, hrest, hapart⟩ := hnodup
      show ObjectStore.read (self.reJudgeAll request model entries
        (self.reJudge request model store first)) entry.2 = _
      obtain rfl | hmem := List.mem_cons.mp hentry
      · rw [read_reJudgeAll_of_disjoint fun other hother hmem =>
          hapart other hother other hmem rfl]
        exact read_reJudge hfirst
      · rw [ih hrest hmem, read_reJudge_of_disjoint]
        intro other hother hother'
        exact hapart other hother' other
          (List.mem_flatMap.mpr ⟨entry, hmem, hother⟩) rfl

/-! ## The second extraction -/

/-- The references of a candidate: those of its task after a failure, new ones
otherwise. -/
def Refers (self : JudgeEscalator Raised) (request : Dtos.ExtractionRequest)
    (model : String) (bound : Nat) (task : EscalationTask)
    (references : List Nat) : Prop :=
  self.reExtract request model task = .failed ∧
      references = task.extractedGroups ∨
    self.reExtract request model task ≠ .failed ∧
      ∀ reference ∈ references, bound ≤ reference

theorem candidate_spec {task : EscalationTask} {references : List Nat}
    {store next : List ExtractedFieldGroup}
    (hbounded : ObjectStore.Bounded store task.extractedGroups)
    (hnodup : task.extractedGroups.Nodup)
    (h : self.candidate request model task store = (references, next)) :
    (∃ more, next = store ++ more) ∧ references.Nodup ∧
      ObjectStore.Bounded next references ∧
      ObjectStore.read next references = self.candidateGroups request model task
        (ObjectStore.read store task.extractedGroups) ∧
      Refers self request model store.length task references := by
  unfold candidate at h
  unfold candidateGroups Refers
  cases hextract : self.reExtract request model task with
  | skipped =>
      simp only [hextract, Prod.mk.injEq] at h
      obtain ⟨rfl, rfl⟩ := h
      simp [ObjectStore.Bounded, ObjectStore.read]
  | extracted groups =>
      simp only [hextract, Prod.mk.injEq] at h
      obtain ⟨rfl, rfl⟩ := h
      refine ⟨⟨groups, rfl⟩, List.nodup_range',
        ObjectStore.bounded_newReferences store groups,
        ObjectStore.read_newReferences store groups, .inr ⟨by simp, ?_⟩⟩
      intro reference hreference
      exact ObjectStore.le_of_mem_newReferences hreference
  | failed =>
      simp only [hextract, Prod.mk.injEq] at h
      obtain ⟨rfl, rfl⟩ := h
      exact ⟨⟨[], by simp⟩, hnodup, hbounded, rfl, .inl ⟨rfl, rfl⟩⟩

structure ReExtracted (escalator : JudgeEscalator Raised)
    (request : Dtos.ExtractionRequest) (model : String)
    (tasks : List EscalationTask) (store : List ExtractedFieldGroup)
    (perDoc : List (List Nat)) (final : List ExtractedFieldGroup) : Prop where
  appends : ∃ more, final = store ++ more
  distinct : perDoc.flatten.Nodup
  values : List.Forall₂ (fun task references =>
    ObjectStore.read final references = escalator.candidateGroups request model task
      (ObjectStore.read store task.extractedGroups)) tasks perDoc
  refers : List.Forall₂ (Refers escalator request model store.length) tasks perDoc

theorem Refers.weaken {bound smaller : Nat} {task : EscalationTask}
    {references : List Nat} (h : Refers self request model bound task references)
    (hle : smaller ≤ bound) :
    Refers self request model smaller task references := by
  obtain ⟨hfailed, hsame⟩ | ⟨hnew, hbound⟩ := h
  · exact .inl ⟨hfailed, hsame⟩
  · right
    refine ⟨hnew, ?_⟩
    intro reference hreference
    have := hbound reference hreference
    omega

theorem mem_flatten_of_refers {bound : Nat} {tasks : List EscalationTask}
    {perDoc : List (List Nat)}
    (h : List.Forall₂ (Refers self request model bound) tasks perDoc)
    {reference : Nat} (hmem : reference ∈ perDoc.flatten) :
    (∃ owner ∈ tasks, self.reExtract request model owner = .failed ∧
        reference ∈ owner.extractedGroups) ∨ bound ≤ reference := by
  obtain ⟨list, hlist, hmem⟩ := List.mem_flatten.mp hmem
  obtain ⟨owner, howner, hcase⟩ := exists_of_forall₂ h hlist
  obtain ⟨hfailed, rfl⟩ | ⟨-, hbound⟩ := hcase
  · exact .inl ⟨owner, howner, hfailed, hmem⟩
  · exact .inr (hbound reference hmem)

theorem not_mem_flatten_of_refers {bound middle : Nat} {task : EscalationTask}
    {tasks : List EscalationTask} {references : List Nat}
    {perDoc : List (List Nat)}
    (hapart : ∀ reference ∈ task.extractedGroups,
      ∀ other ∈ tasks.flatMap EscalationTask.extractedGroups,
        reference ≠ other)
    (hstay : ∀ owner ∈ tasks, ∀ reference ∈ owner.extractedGroups,
      reference < bound)
    (hrefers : Refers self request model bound task references)
    (hrefs : ∀ reference ∈ references, reference < middle)
    (hrest : List.Forall₂ (Refers self request model middle) tasks perDoc) :
    ∀ reference ∈ references, reference ∉ perDoc.flatten := by
  intro reference hreference hmem
  obtain ⟨owner, howner, -, hmem⟩ | hlarge := mem_flatten_of_refers hrest hmem
  · obtain ⟨-, rfl⟩ | ⟨-, hnew⟩ := hrefers
    · exact hapart reference hreference reference
        (List.mem_flatMap.mpr ⟨owner, howner, hmem⟩) rfl
    · have hlow := hstay owner howner reference hmem
      have hhigh := hnew reference hreference
      omega
  · have hlow := hrefs reference hreference
    omega

theorem reExtractAll_spec {tasks : List EscalationTask}
    {store final : List ExtractedFieldGroup} {perDoc : List (List Nat)}
    (hbounded : ∀ task ∈ tasks, ObjectStore.Bounded store task.extractedGroups)
    (hdistinct : (tasks.flatMap EscalationTask.extractedGroups).Nodup)
    (h : self.reExtractAll request model tasks store = (perDoc, final)) :
    ReExtracted self request model tasks store perDoc final := by
  induction tasks generalizing store perDoc with
  | nil =>
      cases h
      exact ⟨⟨[], by simp⟩, List.nodup_nil, .nil, .nil⟩
  | cons task tasks ih =>
      rw [List.flatMap_cons, List.nodup_append] at hdistinct
      obtain ⟨hown, hothers, hapart⟩ := hdistinct
      obtain ⟨references, next, hcandidate⟩ : ∃ references next,
          self.candidate request model task store = (references, next) :=
        ⟨_, _, rfl⟩
      obtain ⟨rest, last, hrest⟩ : ∃ rest last,
          self.reExtractAll request model tasks next = (rest, last) := ⟨_, _, rfl⟩
      simp only [reExtractAll, hcandidate, hrest, Prod.mk.injEq] at h
      obtain ⟨rfl, rfl⟩ := h
      obtain ⟨⟨more, rfl⟩, hnodup, hrefs, hvalue, hrefers⟩ :=
        candidate_spec (hbounded task (by simp)) hown hcandidate
      have hstay : ∀ other ∈ tasks,
          ObjectStore.Bounded store other.extractedGroups := by
        intro other hother
        exact hbounded other (by simp [hother])
      have htail :=
        ih (fun other hother => (hstay other hother).append more) hothers hrest
      obtain ⟨extra, rfl⟩ := htail.appends
      constructor
      case appends => exact ⟨more ++ extra, by simp⟩
      case distinct =>
        rw [List.flatten_cons, List.nodup_append]
        refine ⟨hnodup, htail.distinct, ?_⟩
        rintro reference hreference other hother rfl
        exact not_mem_flatten_of_refers hapart hstay hrefers hrefs
          htail.refers reference hreference hother
      case values =>
        constructor
        · rw [ObjectStore.read_append hrefs]
          exact hvalue
        · refine List.forall₂_iff_zip.mpr ⟨htail.values.length_eq, ?_⟩
          intro other list hmem
          have hother := (List.of_mem_zip hmem).1
          rw [List.forall₂_zip htail.values hmem,
            ObjectStore.read_append (hstay other hother)]
      case refers =>
        constructor
        · exact hrefers
        · exact htail.refers.imp fun other list hother =>
            hother.weaken (by simp)

/-! ## The whole run -/

def groupsAfter (self : JudgeEscalator Raised) (request : Dtos.ExtractionRequest)
    (model : String) (task : EscalationTask)
    (primary : List ExtractedFieldGroup) : List ExtractedFieldGroup :=
  match self.reExtract request model task with
  | .failed => self.judged request model task primary
  | _ => primary

structure SecondRun (escalator : JudgeEscalator Raised)
    (request : Dtos.ExtractionRequest) (model : String)
    (session : EscalationSession) (perDoc : List (List Nat))
    (final : List ExtractedFieldGroup) : Prop where
  candidates : List.Forall₂ (fun task references =>
    ObjectStore.read final references =
      escalator.judgedCandidate request model task (session.groups task))
    session.tasks perDoc
  own : ∀ task ∈ session.tasks,
    ObjectStore.read final task.extractedGroups =
      groupsAfter escalator request model task (session.groups task)

theorem not_mem_of_refers {session : EscalationSession} {task : EscalationTask}
    {perDoc : List (List Nat)} (htask : task ∈ session.tasks)
    (hextract : self.reExtract request model task ≠ .failed)
    (hrefers : List.Forall₂ (Refers self request model session.store.length)
      session.tasks perDoc) :
    ∀ reference ∈ task.extractedGroups, reference ∉ perDoc.flatten := by
  intro reference hreference hmem
  obtain ⟨owner, howner, hfailed, hmem⟩ | hhigh :=
    mem_flatten_of_refers hrefers hmem
  · have hne : owner ≠ task := by
      rintro rfl
      exact hextract hfailed
    have hapart := (List.nodup_flatMap.mp session.distinct).2
    have : Std.Symm (Function.onFun List.Disjoint
        EscalationTask.extractedGroups) := ⟨fun _ _ h _ hx hy => h hy hx⟩
    have hdisjoint := hapart.forall howner htask hne
    exact hdisjoint hmem hreference
  · have hlow := session.bounded task htask reference hreference
    omega

theorem secondRun_spec {session : EscalationSession} {perDoc : List (List Nat)}
    {store : List ExtractedFieldGroup}
    (h : self.reExtractAll request model session.tasks session.store =
      (perDoc, store)) :
    SecondRun self request model session perDoc
      (self.reJudgeAll request model (session.tasks.zip perDoc) store) := by
  have hextracted := reExtractAll_spec session.bounded session.distinct h
  have hflat : (session.tasks.zip perDoc).flatMap Prod.snd = perDoc.flatten := by
    rw [List.flatMap_def, List.map_snd_zip]
    exact hextracted.values.length_eq.ge
  have hnodup := hextracted.distinct
  rw [← hflat] at hnodup
  have hcandidates : List.Forall₂ (fun task references =>
      ObjectStore.read (self.reJudgeAll request model (session.tasks.zip perDoc)
        store) references =
        self.judgedCandidate request model task (session.groups task))
      session.tasks perDoc := by
    refine List.forall₂_iff_zip.mpr ⟨hextracted.values.length_eq, ?_⟩
    intro task references hmem
    have hread := @read_reJudgeAll _ self request model _ store hnodup _ hmem
    rw [hread, List.forall₂_zip hextracted.values hmem]
    rfl
  constructor
  case candidates => exact hcandidates
  case own =>
    intro task htask
    by_cases hextract : self.reExtract request model task = .failed
    · obtain ⟨references, hmem, hcase⟩ := exists_mem_zip hextracted.refers htask
      obtain ⟨-, rfl⟩ | ⟨hnew, -⟩ := hcase
      · rw [List.forall₂_zip hcandidates hmem]
        simp [judgedCandidate, candidateGroups, groupsAfter, hextract]
      · exact absurd hextract hnew
    · have hapart := not_mem_of_refers htask hextract hextracted.refers
      rw [← hflat] at hapart
      obtain ⟨more, rfl⟩ := hextracted.appends
      rw [read_reJudgeAll_of_disjoint hapart,
        ObjectStore.read_append (session.bounded task htask)]
      unfold groupsAfter
      split
      · rename_i hfailed
        exact absurd hfailed hextract
      · rfl

end

end JudgeEscalator

end Flydocs
