import CityPods.Media.ChunkedDownload

/-! # Streamed bodies

What is written of a body that comes in chunks, under a declared length, a cap
and a limit.
-/

namespace CityPods.Media

open Foundation

def Within (number : Nat) (limit : Option Nat) : Prop := ∀ bound, limit = some bound → number ≤ bound

theorem exceeds_eq_false {number : Nat} {limit : Option Nat} :
    exceeds number limit = false ↔ Within number limit := by
  cases limit with
  | none => simp [exceeds, Within]
  | some bound => simp [exceeds, Within]

theorem exceeds_none (number : Nat) : exceeds number none = false := rfl

/-- A body that is read to its declared end is the concatenation of its chunks. -/
theorem streamChunks_declared {expected : Nat} {stopAsked : Nat → Bool}
    {failure : Option TransportError} {chunks : List (List UInt8)} {index written received : Nat}
    {dest staged : List UInt8}
    (done : streamChunks (some expected) none none stopAsked failure index written dest chunks =
      (staged, .ok received)) :
    failure = none ∧ staged = dest ++ chunks.flatten ∧
      received = written + chunks.flatten.length ∧ received = expected := by
  induction chunks generalizing index written dest with
  | nil =>
      cases failure with
      | some error => simp [streamChunks] at done
      | none =>
          simp only [streamChunks, finishStream, Prod.mk.injEq, reduceCtorEq, if_false] at done
          obtain ⟨same, finished⟩ := done
          split at finished
          · next complete =>
            cases finished
            simp [same, complete]
          · cases finished
  | cons chunk rest induction =>
      rw [streamChunks] at done
      split at done
      · cases (Prod.mk.inj done).2
      · split at done
        · next empty =>
          have nothing : chunk = [] := List.isEmpty_iff.mp empty
          simpa [nothing] using induction done
        · simp only [exceeds_none, reduceCtorEq, if_false, Bool.false_eq_true] at done
          split at done
          · cases (Prod.mk.inj done).2
          · obtain ⟨whole, bytes, count, declared⟩ := induction done
            refine ⟨whole, ?_, ?_, declared⟩
            · rw [bytes, List.flatten_cons, List.append_assoc]
            · rw [count, List.flatten_cons, List.length_append, Nat.add_assoc]

section

variable (expected maxBytes : Option Nat) (limit : Nat) (stopAsked : Nat → Bool)

/-- A chunk goes over the limit in its middle, after chunks that keep all limits. -/
def CutInChunk (index written : Nat) (chunks : List (List UInt8)) : Prop :=
  ∃ front chunk back, chunks = front ++ chunk :: back ∧
    written + front.flatten.length < limit ∧
    limit < written + front.flatten.length + chunk.length ∧
    (∀ offset ≤ front.length, stopAsked (index + offset) = false) ∧
    Within (written + front.flatten.length) expected ∧
    Within (written + front.flatten.length) maxBytes

variable {expected maxBytes limit stopAsked}

theorem CutInChunk.cons {index written : Nat} {chunk : List UInt8} {rest : List (List UInt8)}
    (go : stopAsked index = false)
    (cut : CutInChunk expected maxBytes limit stopAsked (index + 1) (written + chunk.length) rest) :
    CutInChunk expected maxBytes limit stopAsked index written (chunk :: rest) := by
  obtain ⟨front, last, back, split, before, above, goes, declared, cap⟩ := cut
  have count : written + (chunk :: front).flatten.length =
      written + chunk.length + front.flatten.length := by
    rw [List.flatten_cons, List.length_append, Nat.add_assoc]
  refine ⟨chunk :: front, last, back, by rw [split, List.cons_append], ?_⟩
  rw [count]
  refine ⟨before, above, fun offset bound => ?_, declared, cap⟩
  cases offset with
  | zero => exact go
  | succ offset =>
      have next := goes offset (Nat.le_of_succ_le_succ bound)
      rwa [Nat.add_assoc, Nat.add_comm 1 offset] at next

end

theorem take_append_flatten {chunk : List UInt8} {rest : List (List UInt8)} {written stop : Nat}
    (past : written + chunk.length ≤ stop) (dest : List UInt8) :
    dest ++ (chunk :: rest).flatten.take (stop - written) =
      dest ++ chunk ++ rest.flatten.take (stop - (written + chunk.length)) := by
  have split : stop - written = chunk.length + (stop - (written + chunk.length)) := by omega
  rw [List.flatten_cons, split, List.take_length_add_append, List.append_assoc]

section

variable {settings : Settings} {expected : Option Nat} {stopAsked : Nat → Bool}
  {failure : Option TransportError} {chunks : List (List UInt8)} {index written : Nat}
  {dest : List UInt8}

/-- What is read of a body is a beginning of it, which is cut in a chunk or as long
as it should be. -/
theorem streamChunks_ok (declared : Within written expected) (cap : Within written settings.maxBytes)
    (room : ∀ limit, settings.maxDownloadBytes = some limit → written < limit) {out : List UInt8}
    {total : Nat} (done : streamChunks expected settings.maxBytes settings.maxDownloadBytes stopAsked
      failure index written dest chunks = (out, .ok total)) :
    (written ≤ total ∧ total ≤ written + chunks.flatten.length ∧
      out = dest ++ chunks.flatten.take (total - written)) ∧
    ((∃ limit, settings.maxDownloadBytes = some limit ∧ total = limit ∧
        CutInChunk expected settings.maxBytes limit stopAsked index written chunks) ∨
      Within total settings.maxBytes ∧
        ∀ length, expected = some length → total = cappedTotal settings length) := by
  induction chunks generalizing index written dest with
  | nil =>
      cases failure with
      | some error => simp [streamChunks] at done
      | none =>
          have open_ : ¬settings.maxDownloadBytes = some written := fun full =>
            Nat.lt_irrefl _ (room written full)
          simp only [streamChunks, finishStream, Prod.mk.injEq, if_neg open_] at done
          obtain ⟨same, finished⟩ := done
          have regular : total = written ∧ ∀ length, expected = some length → written = length := by
            cases expected with
            | none => exact ⟨(Except.ok.inj finished).symm, by simp⟩
            | some length =>
                simp only at finished
                split at finished
                · next complete =>
                  exact ⟨(Except.ok.inj finished).symm, by simpa using complete⟩
                · cases finished
          rw [regular.1]
          refine ⟨⟨Nat.le_refl _, Nat.le_refl _, by simp [same]⟩, .inr ⟨cap, fun length given => ?_⟩⟩
          rw [cappedTotal, ← regular.2 length given]
          split
          · next limit limited =>
            exact (Nat.min_eq_left (Nat.le_of_lt (room limit limited))).symm
          · rfl
  | cons chunk rest induction =>
      rw [streamChunks] at done
      split at done
      · cases (Prod.mk.inj done).2
      next go =>
      have goes : stopAsked index = false := Bool.eq_false_iff.mpr go
      split at done
      · next empty =>
        have nothing : chunk = [] := List.isEmpty_iff.mp empty
        subst nothing
        obtain ⟨facts, cut | regular⟩ := induction declared cap room done
        · obtain ⟨limit, limited, reached, inside⟩ := cut
          exact ⟨facts, .inl ⟨limit, limited, reached, inside.cons goes⟩⟩
        · exact ⟨facts, .inr regular⟩
      · split at done
        · next above =>
          cases limited : settings.maxDownloadBytes with
          | none => rw [limited] at above; cases above
          | some limit =>
              have crossed : limit < written + chunk.length := by
                rw [limited] at above
                simpa [exceeds] using above
              have before := room limit limited
              have reached : written + (limit - written) = limit := by omega
              simp only [limited, Option.getD_some, finishStream, reached, if_true,
                Prod.mk.injEq, Except.ok.injEq] at done
              obtain ⟨bytes, count⟩ := done
              subst count
              refine ⟨⟨Nat.le_of_lt before, ?_, ?_⟩, .inl ⟨limit, rfl, rfl, [], chunk, rest, rfl,
                by simpa using before, by simpa using crossed, ?_, by simpa using declared,
                by simpa using cap⟩⟩
              · rw [List.flatten_cons, List.length_append]
                omega
              · rw [← bytes, List.flatten_cons, List.take_append_of_le_length (by omega)]
              · intro offset bound
                rw [Nat.le_zero.mp bound]
                exact goes
        next under =>
        split at done
        · cases (Prod.mk.inj done).2
        next keepsDeclared =>
        split at done
        · cases (Prod.mk.inj done).2
        next keepsCap =>
        have declaredNow := exceeds_eq_false.mp (Bool.eq_false_iff.mpr keepsDeclared)
        have capNow := exceeds_eq_false.mp (Bool.eq_false_iff.mpr keepsCap)
        have limitNow := exceeds_eq_false.mp (Bool.eq_false_iff.mpr under)
        split at done
        · next full =>
          obtain ⟨bytes, count⟩ := Prod.mk.inj done
          cases count
          refine ⟨⟨Nat.le_add_right _ _, ?_, ?_⟩, .inr ⟨capNow, fun length given => ?_⟩⟩
          · rw [List.flatten_cons, List.length_append]
            omega
          · rw [take_append_flatten (Nat.le_refl _), Nat.sub_self, List.take_zero, List.append_nil,
              bytes]
          · rw [cappedTotal, full]
            exact (Nat.min_eq_right (declaredNow length given)).symm
        · next open_ =>
          have roomNow : ∀ limit, settings.maxDownloadBytes = some limit →
              written + chunk.length < limit := by
            intro limit limited
            refine Nat.lt_of_le_of_ne (limitNow limit limited) fun same => open_ ?_
            rw [same, limited]
          obtain ⟨⟨after, before, bytes⟩, either⟩ := induction declaredNow capNow roomNow done
          refine ⟨⟨by omega, ?_, ?_⟩, ?_⟩
          · rw [List.flatten_cons, List.length_append]
            omega
          · rw [take_append_flatten after, bytes]
          · rcases either with ⟨limit, limited, reached, inside⟩ | regular
            · exact .inl ⟨limit, limited, reached, inside.cons goes⟩
            · exact .inr regular

/-- A body that is cut in a chunk is read to the limit, whatever else holds of it. -/
theorem streamChunks_cut {limit : Nat} (limited : settings.maxDownloadBytes = some limit)
    (cut : CutInChunk expected settings.maxBytes limit stopAsked index written chunks) :
    (streamChunks expected settings.maxBytes settings.maxDownloadBytes stopAsked failure index
      written dest chunks).2 = .ok limit := by
  obtain ⟨front, last, back, split, before, above, goes, declared, cap⟩ := cut
  subst split
  induction front generalizing index written dest with
  | nil =>
      have go := goes 0 (Nat.le_refl 0)
      simp only [List.flatten_nil, List.length_nil, Nat.add_zero] at before above go
      have some_ : last.isEmpty = false := by
        cases last with
        | nil => simp at above; omega
        | cons byte bytes => rfl
      have crossed : exceeds (written + last.length) (some limit) = true := by
        simpa [exceeds] using above
      have reached : written + (limit - written) = limit := by omega
      rw [List.nil_append, streamChunks, go, some_, limited]
      simp [crossed, finishStream, reached]
  | cons chunk front induction =>
      have go : stopAsked index = false := goes 0 (Nat.zero_le _)
      have count : written + (chunk :: front).flatten.length =
          written + chunk.length + front.flatten.length := by
        rw [List.flatten_cons, List.length_append, Nat.add_assoc]
      rw [count] at before above declared cap
      have later : ∀ offset ≤ front.length, stopAsked (index + 1 + offset) = false := by
        intro offset bound
        have next := goes (offset + 1) (Nat.succ_le_succ bound)
        rwa [Nat.add_assoc, Nat.add_comm 1 offset]
      have under : exceeds (written + chunk.length) settings.maxDownloadBytes = false := by
        rw [exceeds_eq_false, limited]
        intro bound same
        cases same
        omega
      have keepsDeclared : exceeds (written + chunk.length) expected = false :=
        exceeds_eq_false.mpr fun bound given => by
          have := declared bound given
          omega
      have keepsCap : exceeds (written + chunk.length) settings.maxBytes = false :=
        exceeds_eq_false.mpr fun bound given => by
          have := cap bound given
          omega
      have open_ : ¬settings.maxDownloadBytes = some (written + chunk.length) := by
        rw [limited]
        intro same
        cases same
        omega
      rw [List.cons_append, streamChunks, go, if_neg Bool.false_ne_true]
      split
      · next empty =>
        have nothing : chunk = [] := List.isEmpty_iff.mp empty
        subst nothing
        exact induction before above later declared cap
      · rw [under, keepsDeclared, keepsCap]
        simp only [Bool.false_eq_true, if_false]
        exact induction before above later declared cap

end

end CityPods.Media
