import Flydocs.Webhook.Agreement
import Flydocs.Workers.BuildRequest

/-!
# The headers of a delivery

The publisher sets a content type, a user agent and, with a secret, a signature
around the headers its caller supplies.  These come from the metadata of the
submission.  Names are compared as HTTP compares them, without regard to case;
the dictionary that holds them is not so lenient.
-/

namespace Flydocs

open Foundation

namespace Webhook

abbrev HttpHeaders := List (String × String)

structure HttpPublisher extends WebhookPublisher where
  signatureHeaderName : String := "X-Flydocs-Signature"
  maxAttempts : Int := 5

/-! ## The header assembly of `deliver` -/

def baseHeaders : HttpHeaders :=
  [("Content-Type", "application/json"), ("User-Agent", "flydocs/26.6.3")]

section

variable (tables : UnicodeTables)

def lowerName (name : String) : List Char := tables.lowerText name.toList

def mergeHeader (headers : HttpHeaders) (entry : String × String) :
    HttpHeaders :=
  if entry.2 = "" then headers
  else if lowerName tables entry.1 = "content-type".toList ∨
      lowerName tables entry.1 = "user-agent".toList then headers
  else assign entry.1 entry.2 headers

variable (hmac : Hmac) (publisher : HttpPublisher)

def HttpPublisher.headers (body : List UInt8) (extraHeaders : HttpHeaders) :
    HttpHeaders :=
  let merged := extraHeaders.foldl (mergeHeader tables) baseHeaders
  match publisher.signatureHeader hmac body with
  | none => merged
  | some signature => assign publisher.signatureHeaderName signature merged

def linesNamed (name : String) (headers : HttpHeaders) : HttpHeaders :=
  headers.filter fun entry =>
    decide (lowerName tables entry.1 = lowerName tables name)

structure HttpPublisher.OwnsHeaders (body : List UInt8)
    (extraHeaders : HttpHeaders) : Prop where
  contentType : linesNamed tables "Content-Type"
    (publisher.headers tables hmac body extraHeaders) =
      [("Content-Type", "application/json")]
  userAgent : linesNamed tables "User-Agent"
    (publisher.headers tables hmac body extraHeaders) =
      [("User-Agent", "flydocs/26.6.3")]
  signature : linesNamed tables publisher.signatureHeaderName
    (publisher.headers tables hmac body extraHeaders) =
      (publisher.signatureHeader hmac body).toList.map
        fun signature => (publisher.signatureHeaderName, signature)

/-- The signature header has a name of its own, and an extra header that goes
by that name is overwritten: it is spelled alike, and there is a secret. -/
structure HttpPublisher.Unforged (extraHeaders : HttpHeaders) : Prop where
  name_ne_contentType : lowerName tables publisher.signatureHeaderName ≠
    "content-type".toList
  name_ne_userAgent : lowerName tables publisher.signatureHeaderName ≠
    "user-agent".toList
  overwritten : ∀ entry ∈ extraHeaders, entry.2 ≠ "" →
    lowerName tables entry.1 = lowerName tables publisher.signatureHeaderName →
      publisher.hmacSecret ≠ "" ∧ entry.1 = publisher.signatureHeaderName

end

variable {tables : UnicodeTables} {hmac : Hmac} {publisher : HttpPublisher}
  {body : List UInt8} {extraHeaders : HttpHeaders}

/-! ## Where the extra headers come from -/

/-- `_extract_correlation`, where `str` is Python's of a JSON value. -/
def extractCorrelation (str : JsonValue → String)
    (metadata : JsonValue.Members) : HttpHeaders :=
  match JsonValue.lookup "_correlation" metadata with
  | some (.obj raw) =>
      (raw.filter fun entry => ExtractionWorker.truthy entry.2).map
        fun entry => (entry.1, str entry.2)
  | _ => []

/-- What a submission with this metadata makes the worker hand over. -/
def submittedHeaders (handler : SubmitExtractionHandler)
    (str : JsonValue → String) (metadata : JsonValue.Members) : HttpHeaders :=
  extractCorrelation str (handler.withCorrelation metadata)

/-! ## Merging -/

theorem lowerName_contentType (tables : UnicodeTables) :
    lowerName tables "Content-Type" = "content-type".toList :=
  UnicodeTables.lowerText_of_ascii (List.forall_iff_forall_mem.mp (by decide))

theorem lowerName_userAgent (tables : UnicodeTables) :
    lowerName tables "User-Agent" = "user-agent".toList :=
  UnicodeTables.lowerText_of_ascii (List.forall_iff_forall_mem.mp (by decide))

def letThrough (tables : UnicodeTables) (entry : String × String) : Bool :=
  decide (entry.2 ≠ "" ∧ lowerName tables entry.1 ≠ "content-type".toList ∧
    lowerName tables entry.1 ≠ "user-agent".toList)

theorem merged_eq (base : HttpHeaders) :
    extraHeaders.foldl (mergeHeader tables) base =
      update base (extraHeaders.filter (letThrough tables)) := by
  induction extraHeaders generalizing base with
  | nil => rfl
  | cons entry extraHeaders ih =>
      rw [List.foldl_cons, ih, List.filter_cons]
      by_cases hthrough : letThrough tables entry = true
      · have hentry := of_decide_eq_true hthrough
        rw [if_pos hthrough, mergeHeader, if_neg hentry.1,
          if_neg (not_or.mpr hentry.2)]
        rfl
      · have hkept : mergeHeader tables base entry = base := by
          unfold mergeHeader
          split
          · rfl
          · split
            · rfl
            · rename_i hvalue hname
              exact absurd (decide_eq_true ⟨hvalue, not_or.mp hname⟩) hthrough
        rw [if_neg hthrough, hkept]

def merged (tables : UnicodeTables) (extraHeaders : HttpHeaders) : HttpHeaders :=
  update baseHeaders (extraHeaders.filter (letThrough tables))

theorem nodup_merged (tables : UnicodeTables) (extraHeaders : HttpHeaders) :
    ((merged tables extraHeaders).map Prod.fst).Nodup :=
  nodup_update (by decide)

theorem headers_eq (hmac : Hmac) (publisher : HttpPublisher) (body : List UInt8)
    (extraHeaders : HttpHeaders) :
    publisher.headers tables hmac body extraHeaders =
      match publisher.signatureHeader hmac body with
      | none => merged tables extraHeaders
      | some signature =>
          assign publisher.signatureHeaderName signature
            (merged tables extraHeaders) := by
  rw [HttpPublisher.headers, merged_eq]
  rfl

theorem linesNamed_merged_own {name : String}
    (h : lowerName tables name = "content-type".toList ∨
      lowerName tables name = "user-agent".toList) :
    linesNamed tables name (merged tables extraHeaders) =
      linesNamed tables name baseHeaders := by
  refine filter_update_of_neg (fun other =>
    decide (lowerName tables other = lowerName tables name)) ?_
  intro entry hentry
  have hthrough := of_decide_eq_true (List.mem_filter.mp hentry).2
  refine decide_eq_false fun hsame => ?_
  rw [hsame] at hthrough
  exact h.elim hthrough.2.1 hthrough.2.2

theorem exists_of_mem_linesNamed {name : String} {line : String × String}
    (htype : lowerName tables name ≠ "content-type".toList)
    (hagent : lowerName tables name ≠ "user-agent".toList)
    (h : line ∈ linesNamed tables name (merged tables extraHeaders)) :
    ∃ entry ∈ extraHeaders, entry.1 = line.1 ∧ entry.2 ≠ "" := by
  obtain ⟨hmem, hname⟩ := List.mem_filter.mp h
  have hname := of_decide_eq_true hname
  rcases mem_map_fst_update.mp (List.mem_map_of_mem hmem) with
    hbase | hthrough
  · simp only [baseHeaders, List.map_cons, List.map_nil, List.mem_cons,
      List.not_mem_nil, or_false] at hbase
    rcases hbase with hbase | hbase
    · rw [← hname, hbase] at htype
      exact absurd (lowerName_contentType tables) htype
    · rw [← hname, hbase] at hagent
      exact absurd (lowerName_userAgent tables) hagent
  · obtain ⟨entry, hentry, hkey⟩ := List.mem_map.mp hthrough
    obtain ⟨hextra, hlet⟩ := List.mem_filter.mp hentry
    exact ⟨entry, hextra, hkey, (of_decide_eq_true hlet).1⟩

/-! ## What a receiver finds -/

variable (hmac) in
theorem linesNamed_headers_own {name : String}
    (hname : lowerName tables name = "content-type".toList ∨
      lowerName tables name = "user-agent".toList)
    (htype : lowerName tables publisher.signatureHeaderName ≠
      "content-type".toList)
    (hagent : lowerName tables publisher.signatureHeaderName ≠
      "user-agent".toList) :
    linesNamed tables name (publisher.headers tables hmac body extraHeaders) =
      linesNamed tables name baseHeaders := by
  rw [headers_eq]
  split
  · exact linesNamed_merged_own hname
  · have hother : lowerName tables publisher.signatureHeaderName ≠
        lowerName tables name := by
      intro hsame
      rw [hsame] at htype hagent
      exact hname.elim htype hagent
    rw [linesNamed, filter_assign_of_neg (fun other =>
      decide (lowerName tables other = lowerName tables name))
      (decide_eq_false hother)]
    exact linesNamed_merged_own hname

theorem linesNamed_signature (h : publisher.Unforged tables extraHeaders) :
    linesNamed tables publisher.signatureHeaderName
        (publisher.headers tables hmac body extraHeaders) =
      (publisher.signatureHeader hmac body).toList.map
        fun signature => (publisher.signatureHeaderName, signature) := by
  have hexact : ∀ line ∈ linesNamed tables publisher.signatureHeaderName
      (merged tables extraHeaders),
      publisher.hmacSecret ≠ "" ∧ line.1 = publisher.signatureHeaderName := by
    intro line hline
    obtain ⟨entry, hentry, hkey, hvalue⟩ := exists_of_mem_linesNamed
      h.name_ne_contentType h.name_ne_userAgent hline
    have hname := of_decide_eq_true (List.mem_filter.mp hline).2
    have hown := h.overwritten entry hentry hvalue (hkey ▸ hname)
    exact ⟨hown.1, hkey ▸ hown.2⟩
  rw [headers_eq]
  cases hsignature : publisher.signatureHeader hmac body with
  | none =>
      have hsecret : publisher.hmacSecret = "" := by
        simpa [WebhookPublisher.signatureHeader] using hsignature
      exact List.eq_nil_iff_forall_not_mem.mpr fun line hline =>
        (hexact line hline).1 hsecret
  | some signature =>
      have hnodup := nodup_merged tables extraHeaders
      refine List.perm_singleton.mp
        ((List.perm_ext_iff_of_nodup ?_ (List.nodup_singleton _)).mpr ?_)
      · exact (nodup_assign hnodup).of_map.filter _
      · intro line
        rw [List.mem_singleton, linesNamed, List.mem_filter,
          mem_assign_iff hnodup, decide_eq_true_eq]
        constructor
        · rintro ⟨rfl | ⟨hline, hother⟩, hname⟩
          · rfl
          · exact absurd (hexact line (List.mem_filter.mpr
              ⟨hline, decide_eq_true hname⟩)).2 hother
        · rintro rfl
          exact ⟨.inl rfl, rfl⟩

theorem signatureHeader_ne_json :
    publisher.signatureHeader hmac body ≠ some "application/json" ∧
      publisher.signatureHeader hmac body ≠ some "flydocs/26.6.3" := by
  have hequals : ∀ header, publisher.signatureHeader hmac body = some header →
      '=' ∈ header.toList := by
    intro header hheader
    simp only [WebhookPublisher.signatureHeader] at hheader
    split at hheader
    · cases hheader
    · cases hheader
      simp
  constructor
  · intro hsame
    have hmem := hequals _ hsame
    revert hmem
    decide
  · intro hsame
    have hmem := hequals _ hsame
    revert hmem
    decide

theorem HttpPublisher.OwnsHeaders.signature_eq_some
    (h : publisher.OwnsHeaders tables hmac body extraHeaders)
    {name value : String}
    (hname : lowerName tables publisher.signatureHeaderName =
      lowerName tables name)
    (hline : linesNamed tables name
      (publisher.headers tables hmac body extraHeaders) = [(name, value)]) :
    publisher.signatureHeader hmac body = some value := by
  have hsignature := h.signature
  rw [linesNamed, hname, ← linesNamed, hline] at hsignature
  cases hheader : publisher.signatureHeader hmac body with
  | none => simp [hheader] at hsignature
  | some signature =>
      rw [hheader] at hsignature
      simp only [Option.toList_some, List.map_cons, List.map_nil,
        List.cons.injEq, Prod.mk.injEq, and_true] at hsignature
      rw [hsignature.2]

theorem exists_line_of_letThrough {entry : String × String}
    (hentry : entry ∈ extraHeaders) (hthrough : letThrough tables entry = true) :
    ∃ line ∈ merged tables extraHeaders, line.1 = entry.1 :=
  List.mem_map.mp (mem_map_fst_update.mpr (.inr (List.mem_map_of_mem
    (List.mem_filter.mpr ⟨hentry, hthrough⟩))))

theorem HttpPublisher.OwnsHeaders.overwritten
    (h : publisher.OwnsHeaders tables hmac body extraHeaders)
    (htype : lowerName tables publisher.signatureHeaderName ≠
      "content-type".toList)
    (hagent : lowerName tables publisher.signatureHeaderName ≠
      "user-agent".toList)
    {entry : String × String} (hentry : entry ∈ extraHeaders)
    (hvalue : entry.2 ≠ "")
    (hname : lowerName tables entry.1 =
      lowerName tables publisher.signatureHeaderName) :
    publisher.hmacSecret ≠ "" ∧
      entry.1 = publisher.signatureHeaderName := by
  have hthrough : letThrough tables entry = true :=
    decide_eq_true ⟨hvalue, hname ▸ htype, hname ▸ hagent⟩
  obtain ⟨line, hline, hkey⟩ := exists_line_of_letThrough hentry hthrough
  have hlineName : lowerName tables line.1 =
      lowerName tables publisher.signatureHeaderName := by
    rw [hkey, hname]
  have hsignature := h.signature
  rw [headers_eq] at hsignature
  cases hheader : publisher.signatureHeader hmac body with
  | none =>
      simp only [hheader, Option.toList_none, List.map_nil] at hsignature
      have hmem : line ∈ linesNamed tables publisher.signatureHeaderName _ :=
        List.mem_filter.mpr ⟨hline, decide_eq_true hlineName⟩
      exact absurd hsignature (List.ne_nil_of_mem hmem)
  | some signature =>
      have hsecret : publisher.hmacSecret ≠ "" := by
        intro hnone
        simp [WebhookPublisher.signatureHeader, hnone] at hheader
      refine ⟨hsecret, ?_⟩
      by_contra hother
      simp only [hheader, Option.toList_some, List.map_cons,
        List.map_nil] at hsignature
      have hassigned : line ∈ assign publisher.signatureHeaderName signature
          (merged tables extraHeaders) :=
        (mem_assign_iff (nodup_merged tables extraHeaders)).mpr
          (.inr ⟨hline, hkey ▸ hother⟩)
      have hmem : line ∈ linesNamed tables publisher.signatureHeaderName _ :=
        List.mem_filter.mpr ⟨hassigned, decide_eq_true hlineName⟩
      rw [hsignature, List.mem_singleton] at hmem
      exact hother (hkey ▸ hmem ▸ rfl)

/-- The receiver finds the publisher's own lines exactly where no extra header
passes for the signature. -/
theorem ownsHeaders_iff (tables : UnicodeTables) (hmac : Hmac)
    (publisher : HttpPublisher) (body : List UInt8) (extraHeaders : HttpHeaders) :
    publisher.OwnsHeaders tables hmac body extraHeaders ↔
      publisher.Unforged tables extraHeaders := by
  have hbase : linesNamed tables "Content-Type" baseHeaders =
        [("Content-Type", "application/json")] ∧
      linesNamed tables "User-Agent" baseHeaders =
        [("User-Agent", "flydocs/26.6.3")] := by
    simp [linesNamed, baseHeaders, lowerName_contentType, lowerName_userAgent]
  constructor
  · intro h
    have htype : lowerName tables publisher.signatureHeaderName ≠
        "content-type".toList := by
      intro hsame
      rw [← lowerName_contentType tables] at hsame
      exact signatureHeader_ne_json.1
        (h.signature_eq_some hsame h.contentType)
    have hagent : lowerName tables publisher.signatureHeaderName ≠
        "user-agent".toList := by
      intro hsame
      rw [← lowerName_userAgent tables] at hsame
      exact signatureHeader_ne_json.2 (h.signature_eq_some hsame h.userAgent)
    exact ⟨htype, hagent, fun entry hentry hvalue hname =>
      h.overwritten htype hagent hentry hvalue hname⟩
  · intro h
    refine ⟨?_, ?_, linesNamed_signature h⟩
    · rw [linesNamed_headers_own hmac (.inl (lowerName_contentType tables))
        h.name_ne_contentType h.name_ne_userAgent]
      exact hbase.1
    · rw [linesNamed_headers_own hmac (.inr (lowerName_userAgent tables))
        h.name_ne_contentType h.name_ne_userAgent]
      exact hbase.2

/-! ## A forged signature -/

def verbatimTables : UnicodeTables where
  isPrintable _ := true
  lower char := [char]
  toUpperCase char := char
  toLowerCase char := char

def traced : SubmitExtractionHandler where
  validator := ⟨fun _ => true, .peeling⟩
  scalars := .json
  sha256 _ := "digest"
  correlation := [("X-Correlation-Id", .str "corr-123")]

def strText : JsonValue → String
  | .str text => text
  | _ => ""

/-- The caller's own `_correlation` is kept, with a signature of its making. -/
def forgedMetadata : JsonValue.Members :=
  [("_correlation", .obj [("x-flydocs-signature", .str "sha256=00")])]

theorem not_ownsHeaders :
    ¬ ∀ (tables : UnicodeTables) (hmac : Hmac) (publisher : HttpPublisher)
      (body : List UInt8) (handler : SubmitExtractionHandler)
      (str : JsonValue → String) (metadata : JsonValue.Members),
      publisher.OwnsHeaders tables hmac body
        (submittedHeaders handler str metadata) := by
  intro h
  have howns := h verbatimTables (fun _ _ => .replicate 32 0)
    { hmacSecret := "s3cret" } [] traced strText forgedMetadata
  have hsame := (howns.overwritten (by decide) (by decide)
    (List.mem_singleton_self ("x-flydocs-signature", "sha256=00"))
    (by decide) (by decide)).2
  revert hsame
  decide

end Webhook

end Flydocs
