import CityPods.Media.AssembledRanges

/-! # Verified downloads

What a download that returns has written: the bodies of ranges that tile the
object, or the beginning of one full body. One branch of the stream leaves its
checks out, where a chunk goes over the download limit.
-/

namespace CityPods.Media

open Foundation

section

variable (environment : Environment) (settings : Settings)

/-- The file is tiled by the bodies of different partial responses. -/
def FromRanges (size : Nat) (dest : List UInt8) : Prop :=
  ∃ total requests, requests.Pairwise (· < ·) ∧
    Tiled environment.server total requests dest size ∧ size = cappedTotal settings total

def FromFull (request size : Nat) (dest : List UInt8) : Prop :=
  ∃ response, environment.server request = .inr response ∧ response.status = 200 ∧
    dest = response.body.take size ∧
    ∀ length, positiveInt response.contentLength = some length → size = cappedTotal settings length

def RangesEnd (left : Except RangeFailure RangeState) : Prop :=
  Loop.Ends (rangePass environment settings) rangeStart left

structure VerifiedFile (size : Nat) (dest : List UInt8) : Prop where
  length : dest.length = size
  capped : Within size settings.maxBytes
  ranges : ∀ last, RangesEnd environment settings (.ok last) → FromRanges environment settings size dest
  full : ∀ failure message, RangesEnd environment settings (.error failure) →
    failure.raised = .rangeUnsupported message →
    FromFull environment settings failure.state.requests size dest

def Verified (download : Download) : Prop :=
  ∀ size, download.result = .ok size → VerifiedFile environment settings size download.dest

/-- A full body is cut within a chunk at a download limit that is over the declared
length or the cap. -/
def OverCut : Prop :=
  environment.validated = .ok () ∧ environment.admitted = .ok () ∧
    ∃ failure message response limit, RangesEnd environment settings (.error failure) ∧
      failure.raised = .rangeUnsupported message ∧
      environment.server failure.state.requests = .inr response ∧ response.status = 200 ∧
      (∀ length, positiveInt response.contentLength = some length → Within length settings.maxBytes) ∧
      settings.maxDownloadBytes = some limit ∧
      CutInChunk (positiveInt response.contentLength) settings.maxBytes limit
        (environment.stopAsked failure.state.requests) 0 0 response.chunks ∧
      (exceeds limit settings.maxBytes ∨ exceeds limit (positiveInt response.contentLength))

variable {environment settings}

theorem cappedTotal_le (total : Nat) : cappedTotal settings total ≤ total := by
  rw [cappedTotal]
  split
  · exact Nat.min_le_left _ _
  · exact Nat.le_refl _

variable {size : Nat}

theorem handled_eq_ok {result : Except Raised Nat} :
    handled result = .ok size ↔ result = .ok size := by
  rcases result with raised | value
  · cases raised <;> simp [handled]
  · simp [handled]

/-- The ranges of a loop that is left in good order. -/
theorem verified_ranges {last : RangeState} (ended : RangesEnd environment settings (.ok last)) :
    Verified environment settings ⟨handled (assembledSize settings last), last.output⟩ := by
  intro size returned
  obtain ⟨assembled, target⟩ := rangeLoop_ok ended
  rw [targetBytes, Option.map_eq_some_iff] at target
  obtain ⟨total, told, reached⟩ := target
  obtain ⟨requests, ascending, _, tiled⟩ := assembled.tiled total told
  have length := tiled.length
  rw [handled_eq_ok, assembledSize] at returned
  split at returned
  · cases returned
    refine ⟨rfl, fun cap limited => ?_, fun _ _ => ⟨total, requests, ascending, ?_, ?_⟩,
      fun failure message other _ => ?_⟩
    · have bound := assembled.capped total told cap limited
      have less : cappedTotal settings total ≤ total := cappedTotal_le total
      omega
    · rw [length]
      exact tiled
    · rw [length, reached]
    · exact absurd (ended.unique other) (by simp)
  · cases returned

variable {request : Nat}

theorem downloadFull_eq {response : Response} (before : List UInt8)
    (answered : environment.server request = .inr response) (status : response.status = 200)
    (declared : ∀ length, positiveInt response.contentLength = some length →
      Within length settings.maxBytes) :
    downloadFull environment settings request before =
      streamChunks (positiveInt response.contentLength) settings.maxBytes settings.maxDownloadBytes
        (environment.stopAsked request) response.failure 0 0 [] response.chunks := by
  have keeps : ((positiveInt response.contentLength).any fun length =>
      exceeds length settings.maxBytes) = false := by
    cases advertised : positiveInt response.contentLength with
    | none => rfl
    | some length => exact exceeds_eq_false.mpr (declared length advertised)
  simp only [downloadFull, answered, status, keeps, streamResponse]
  simp

theorem downloadFull_ok {before dest : List UInt8}
    (done : downloadFull environment settings request before = (dest, .ok size)) :
    ∃ response, environment.server request = .inr response ∧ response.status = 200 ∧
      ∀ length, positiveInt response.contentLength = some length →
        Within length settings.maxBytes := by
  rw [downloadFull] at done
  cases answered : environment.server request with
  | inl error => rw [answered] at done; cases (Prod.mk.inj done).2
  | inr response =>
      simp only [answered] at done
      split at done
      · cases (Prod.mk.inj done).2
      next status =>
      split at done
      · cases (Prod.mk.inj done).2
      next keeps =>
      refine ⟨response, rfl, not_not.mp status, fun length advertised => ?_⟩
      apply exceeds_eq_false.mp
      simpa [advertised] using keeps

variable {failure : RangeFailure} {message : String}

theorem verified_full (ended : RangesEnd environment settings (.error failure))
    (unsupported : failure.raised = .rangeUnsupported message)
    (validated : environment.validated = .ok ()) (admitted : environment.admitted = .ok ())
    (room : ∀ limit, settings.maxDownloadBytes = some limit → 1 ≤ limit)
    (notOver : ¬OverCut environment settings) (before : List UInt8) :
    Verified environment settings
      ⟨handled (downloadFull environment settings failure.state.requests before).2,
        (downloadFull environment settings failure.state.requests before).1⟩ := by
  intro size returned
  rw [handled_eq_ok] at returned
  obtain ⟨response, answered, status, declared⟩ := downloadFull_ok (Prod.ext rfl returned)
  have streamed := downloadFull_eq before answered status declared
  have stream : downloadFull environment settings failure.state.requests before =
      ((downloadFull environment settings failure.state.requests before).1, .ok size) :=
    Prod.ext rfl returned
  rw [streamed] at stream
  obtain ⟨⟨_, short, bytes⟩, either⟩ := streamChunks_ok (fun _ _ => Nat.zero_le _)
    (fun _ _ => Nat.zero_le _) room stream
  rw [Nat.zero_add] at short
  rw [List.nil_append, Nat.sub_zero] at bytes
  have kept : Within size settings.maxBytes ∧ ∀ length,
      positiveInt response.contentLength = some length → size = cappedTotal settings length := by
    rcases either with ⟨limit, limited, reached, cut⟩ | regular
    · have within : exceeds limit settings.maxBytes = false ∧
          exceeds limit (positiveInt response.contentLength) = false := by
        rw [← Bool.or_eq_false_iff, ← Bool.not_eq_true, Bool.or_eq_true]
        intro above
        exact notOver ⟨validated, admitted, failure, message, response, limit, ended, unsupported,
          answered, status, declared, limited, cut, above⟩
      rw [reached]
      refine ⟨exceeds_eq_false.mp within.1, fun length advertised => ?_⟩
      rw [cappedTotal, limited]
      exact (Nat.min_eq_right (exceeds_eq_false.mp within.2 length advertised)).symm
    · exact regular
  refine ⟨?_, kept.1, fun last other => absurd (ended.unique other) (by simp),
    fun other text otherEnd _ => ?_⟩
  · simp only [streamed, bytes, List.length_take]
    exact Nat.min_eq_left short
  · cases ended.unique otherEnd
    exact ⟨response, answered, status, by simp only [streamed, bytes]; rfl, kept.2⟩

/-- A body that is cut over another bound is returned at the length of the cut. -/
theorem OverCut.not_verified (above : OverCut environment settings)
    (ended : RangesEnd environment settings (.error failure))
    (unsupported : failure.raised = .rangeUnsupported message) (before : List UInt8) :
    ¬Verified environment settings
      ⟨handled (downloadFull environment settings failure.state.requests before).2,
        (downloadFull environment settings failure.state.requests before).1⟩ := by
  obtain ⟨_, _, other, text, response, limit, otherEnd, _, answered, status, declared, limited, cut,
    bound⟩ := above
  cases ended.unique otherEnd
  have streamed := downloadFull_eq before answered status declared
  have returned : (downloadFull environment settings failure.state.requests before).2 = .ok limit := by
    rw [streamed]
    exact streamChunks_cut limited cut
  intro verified
  have file := verified limit (handled_eq_ok.mpr returned)
  rcases bound with cap | length
  · rw [exceeds_eq_false.mpr file.capped] at cap
    cases cap
  · obtain ⟨same, found, _, _, exact⟩ := file.full failure message ended unsupported
    rw [answered] at found
    cases found
    cases advertised : positiveInt response.contentLength with
    | none => rw [advertised] at length; cases length
    | some declaredLength =>
        have reached := exact declaredLength advertised
        have less : cappedTotal settings declaredLength ≤ declaredLength := cappedTotal_le _
        rw [advertised] at length
        have longer : limit > declaredLength := by simpa [exceeds] using length
        omega

variable {left : Except RangeFailure RangeState}

theorem not_overCut (ended : RangesEnd environment settings left)
    (supported : ∀ failure message, left = .error failure → failure.raised ≠ .rangeUnsupported message) :
    ¬OverCut environment settings := by
  rintro ⟨_, _, failure, message, _, _, otherEnd, unsupported, _⟩
  exact supported failure message (ended.unique otherEnd) unsupported

theorem verified_afterRanges_iff (ended : RangesEnd environment settings left)
    (validated : environment.validated = .ok ()) (admitted : environment.admitted = .ok ())
    (room : ∀ limit, settings.maxDownloadBytes = some limit → 1 ≤ limit) :
    Verified environment settings (afterRanges environment settings left) ↔
      ¬OverCut environment settings := by
  cases left with
  | ok last =>
      refine iff_of_true (verified_ranges ended) (not_overCut ended ?_)
      intro failure message same
      cases same
  | error failure =>
      rw [afterRanges]
      split
      · next message unsupported =>
        constructor
        · intro verified above
          exact above.not_verified ended unsupported _ verified
        · intro notOver
          exact verified_full ended unsupported validated admitted room notOver _
      · next raised supported =>
        refine iff_of_true ?_ (not_overCut ended ?_)
        · intro size returned
          rw [handled_eq_ok] at returned
          cases returned
        · intro other message same
          cases same
          exact supported message

/-- The download ends, whatever the server does, and what it returns is verified
unless a full body is cut over another bound. -/
theorem downloadVerified_verified_iff (environment : Environment) {settings : Settings}
    (positive : 1 ≤ settings.chunkBytes)
    (room : ∀ limit, settings.maxDownloadBytes = some limit → 1 ≤ limit) (before : List UInt8) :
    ∃ download, (∃ fuel, ∀ more, fuel ≤ more →
        downloadVerified environment settings more before = some download) ∧
      (Verified environment settings download ↔ ¬OverCut environment settings) := by
  have roomy : (settings.maxDownloadBytes.any (· ≤ 0)) = false := by
    cases limited : settings.maxDownloadBytes with
    | none => rfl
    | some limit =>
        have least := room limit limited
        rw [Option.any_some, decide_eq_false_iff_not]
        omega
  have started : ¬settings.chunkBytes ≤ 0 := by omega
  cases validated : environment.validated with
  | error raised =>
      refine ⟨⟨.error raised, before⟩, ⟨0, fun more _ => ?_⟩, ?_⟩
      · rw [downloadVerified, if_neg started, roomy, if_neg Bool.false_ne_true, validated]
      · refine iff_of_true (fun _ returned => nomatch returned) fun above => ?_
        cases validated.symm.trans above.1
  | ok _ =>
      cases admitted : environment.admitted with
      | error raised =>
          refine ⟨⟨handled (.error raised), before⟩, ⟨0, fun more _ => ?_⟩, ?_⟩
          · rw [downloadVerified, if_neg started, roomy, if_neg Bool.false_ne_true, validated,
              admitted]
          · refine iff_of_true (fun size returned => ?_) fun above => ?_
            · rw [handled_eq_ok] at returned
              cases returned
            · cases admitted.symm.trans above.2.1
      | ok _ =>
          obtain ⟨left, fuel, ended⟩ := rangeLoop_ends environment settings
          refine ⟨afterRanges environment settings left, ⟨fuel, fun more enough => ?_⟩,
            verified_afterRanges_iff ⟨fuel, ended⟩ validated admitted room⟩
          rw [downloadVerified, if_neg started, roomy, if_neg Bool.false_ne_true, validated,
            admitted]
          simp only [Loop.run_more ended enough, Option.map_some]

end

/-- A server that ignores ranges and sends a body longer than it declares. -/
def longBody : Environment where
  server _ := .inr ⟨200, some "5", none, [[1, 2, 3, 4], [5, 6, 7, 8, 9, 10, 11, 12]], none⟩
  stopAsked _ _ := false
  validated := .ok ()
  admitted := .ok ()

/-- One that sends more than may be read, without a length. -/
def largeBody : Environment where
  server _ := .inr ⟨200, none, none, [[1, 2, 3, 4, 5, 6, 7, 8, 9, 10, 11]], none⟩
  stopAsked _ _ := false
  validated := .ok ()
  admitted := .ok ()

/-- Ten bytes are returned where five are declared, and where six are the cap. -/
theorem downloadVerified_not_verified :
    (∃ download, downloadVerified longBody ⟨4, none, some 10⟩ 1 [] = some download ∧
      download.result = .ok 10 ∧ ¬Verified longBody ⟨4, none, some 10⟩ download) ∧
    ∃ download, downloadVerified largeBody ⟨4, some 6, some 10⟩ 1 [] = some download ∧
      download.result = .ok 10 ∧ ¬Verified largeBody ⟨4, some 6, some 10⟩ download := by
  refine ⟨⟨⟨.ok 10, [1, 2, 3, 4, 5, 6, 7, 8, 9, 10]⟩, by rfl, rfl, fun verified => ?_⟩,
    ⟨.ok 10, [1, 2, 3, 4, 5, 6, 7, 8, 9, 10]⟩, by rfl, rfl, fun verified => ?_⟩
  · have full := (verified 10 rfl).full
      ⟨.rangeUnsupported "Worker/upstream ignored the requested Range", ⟨1, 0, none, []⟩⟩ _
      ⟨1, by rfl⟩ rfl
    obtain ⟨response, answered, _, _, declared⟩ := full
    cases answered
    exact absurd (declared 5 (by decide)) (by decide)
  · exact absurd ((verified 10 rfl).capped 6 rfl) (by decide)

theorem downloadVerified_verified_iff_long :
    ∃ download, (∃ fuel, ∀ more, fuel ≤ more →
        downloadVerified longBody ⟨4, none, some 10⟩ more [] = some download) ∧
      (Verified longBody ⟨4, none, some 10⟩ download ↔ ¬OverCut longBody ⟨4, none, some 10⟩) :=
  downloadVerified_verified_iff longBody (by decide)
    (fun limit limited => by cases limited; decide) []

end CityPods.Media
