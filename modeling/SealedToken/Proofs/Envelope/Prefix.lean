import SealedToken.Proofs.Envelope.Grammar

/-!
# Extensions and prefixes of envelopes

`Envelope.decode` looks at no byte before it has to. Its outcome is the same for every extension of
the bytes, unless it is an error of bytes that ran out, and a prefix of an envelope is accepted
exactly if the terminal tag is left.

* `EnvelopeError.isCutShort`: the errors of bytes that ran out.
* `Ending.append`: an ending with any other outcome is still the ending when bytes are added.
* `Envelope.decode_append_of_ok`, `Envelope.decode_append_of_error`: the same of `Envelope.decode`.
* `Envelope.isCutShort_of_prefix_entries`: a prefix of the entries before the terminal tag is
  refused as cut short.
* `Envelope.decode_looks_no_further`: all prefixes of an envelope and all extensions of any byte
  string.
-/

namespace SealedToken

/-- The error says that the bytes ended too early. -/
def EnvelopeError.isCutShort : EnvelopeError → Bool
  | .missingTerminal | .truncated _ | .lengthOutOfRange .. => true
  | _ => false

/-- The envelope with more of a payload. -/
def Envelope.withMore (more : Bytes) (envelope : Envelope) : Envelope :=
  { envelope with payload := envelope.payload ++ more }

variable {options : Dialect} {row : Row} {bytes rest : Bytes}
  {envelope : Envelope} {e : EnvelopeError}

/-! ## Extensions -/

/-- An ending other than that the bytes ended too early stays the same with more bytes behind, which
only extend the payload. -/
theorem Ending.append {result : Except EnvelopeError Envelope} (h : Ending options row rest result)
    (hsettled : ∀ e, result = .error e → e.isCutShort = false) (more : Bytes) :
    Ending options row (rest ++ more) (result.map (Envelope.withMore more)) := by
  have hmore : ∀ tail : Bytes, tail.length ≤ (tail ++ more).length :=
    fun tail => (List.prefix_append tail more).length_le
  cases h with
  | missingTerminal => cases hsettled _ rfl
  | truncated => cases hsettled _ rfl
  | lengthOutOfRange => cases hsettled _ rfl
  | terminal payload => exact .terminal (payload ++ more)
  | unexpectedTag tail hterminal hplace => exact .unexpectedTag (tail ++ more) hterminal hplace
  | duplicateEntry hplace hcomplete hseen =>
    exact .duplicateEntry hplace (Nat.le_trans hcomplete (hmore _)) hseen
  | @invalidVersion length tail reason hcomplete hfirst hvalue =>
    have hsame : (tail ++ more).take length.toNat = tail.take length.toNat :=
      List.take_append_of_le_length hcomplete
    rw [← hsame] at hvalue
    exact .invalidVersion (Nat.le_trans hcomplete (hmore _)) hfirst hvalue

namespace Envelope

theorem decode_append {result : Except EnvelopeError Envelope} (h : decode options bytes = result)
    (hsettled : ∀ e, result = .error e → e.isCutShort = false) (more : Bytes) :
    decode options (bytes ++ more) = result.map (withMore more) := by
  obtain ⟨row, rest, hcut⟩ := exists_isCut options bytes
  obtain ⟨result', hending⟩ := hcut.exists_ending
  obtain rfl : result' = result := (decode_of_isCut hcut hending).symm.trans h
  rw [hcut.bytes_eq, List.append_assoc]
  exact decode_of_ending hcut.legal (hending.append hsettled more)

/-- Bytes behind an envelope extend its payload. -/
theorem decode_append_of_ok (h : decode options bytes = .ok envelope) (more : Bytes) :
    decode options (bytes ++ more) = .ok { envelope with payload := envelope.payload ++ more } :=
  decode_append h nofun more

/-- Bytes behind do not mend what is wrong before them. -/
theorem decode_append_of_error (h : decode options bytes = .error e)
    (hsettled : e.isCutShort = false)
    (more : Bytes) : decode options (bytes ++ more) = .error e := by
  refine decode_append h ?_ more
  rintro _ ⟨⟩
  exact hsettled

/-! ## Prefixes -/

/-- The bytes of an envelope are a legal row, the terminal tag and the payload. -/
theorem exists_row_of_decode (h : decode options bytes = .ok envelope) :
    ∃ row, Row.Legal options row ∧ bytes = row.bytes ++ EntryTag.terminal.code :: envelope.payload ∧
      envelope = row.envelope options envelope.payload := by
  obtain ⟨row, rest, hcut⟩ := exists_isCut options bytes
  obtain ⟨result, hending⟩ := hcut.exists_ending
  obtain rfl : result = .ok envelope := (decode_of_isCut hcut hending).symm.trans h
  cases hending with
  | terminal payload => exact ⟨row, hcut.legal, hcut.bytes_eq, rfl⟩

/-- `decode` of a prefix that ends before the terminal tag of an envelope fails because the bytes
ended too early. -/
theorem isCutShort_of_prefix_entries {entries front : Bytes}
    (h : decode options (entries ++ EntryTag.terminal.code :: envelope.payload) = .ok envelope)
    (hfront : front <+: entries) : ∃ e, decode options front = .error e ∧ e.isCutShort = true := by
  obtain ⟨cut, rfl⟩ := hfront
  rw [List.append_assoc] at h
  cases hread : decode options front with
  | ok found =>
    -- all that was cut off would be payload, and with it the terminal tag in front of the payload
    rw [decode_append_of_ok hread] at h
    have hlen := congrArg (fun envelope => envelope.payload.length) (Except.ok.inj h)
    simp only [List.length_append, List.length_cons] at hlen
    omega
  | error e =>
    cases hshort : e.isCutShort with
    | true => exact ⟨e, rfl, hshort⟩
    | false =>
      rw [decode_append_of_error hread hshort] at h
      cases h

/-- Bytes behind an envelope extend its payload, and bytes behind an unexpected tag, a duplicate
entry or an unreadable version do not change the error. A prefix of an envelope that contains its
terminal tag is the envelope with the payload cut, and every shorter prefix fails because the bytes
ended too early. -/
theorem decode_looks_no_further (options : Dialect) (bytes : Bytes) :
    (∀ envelope more, decode options bytes = .ok envelope →
      decode options (bytes ++ more) = .ok { envelope with payload := envelope.payload ++ more }) ∧
    (∀ e more, decode options bytes = .error e → e.isCutShort = false →
      decode options (bytes ++ more) = .error e) ∧
    ∀ envelope, decode options bytes = .ok envelope →
      ∃ entries, bytes = entries ++ EntryTag.terminal.code :: envelope.payload ∧
        ∀ front, front <+: bytes →
          (front <+: entries ∧ ∃ e, decode options front = .error e ∧ e.isCutShort = true) ∨
          ∃ payload, payload <+: envelope.payload ∧
            front = entries ++ EntryTag.terminal.code :: payload ∧
            decode options front = .ok { envelope with payload } := by
  refine ⟨fun _ more h => decode_append_of_ok h more,
    fun _ more h hsettled => decode_append_of_error h hsettled more, fun envelope h => ?_⟩
  obtain ⟨row, hrow, rfl, henvelope⟩ := exists_row_of_decode h
  refine ⟨row.bytes, rfl, fun front hfront => ?_⟩
  have hcompare := List.prefix_or_prefix_of_prefix hfront (List.prefix_append row.bytes _)
  rcases hcompare with hshort | ⟨left, rfl⟩
  · exact .inl ⟨hshort, isCutShort_of_prefix_entries h hshort⟩
  · have hrest := List.prefix_cons_iff.mp ((List.prefix_append_right_inj _).mp hfront)
    rcases hrest with rfl | ⟨payload, rfl, hleft⟩
    · rw [List.append_nil]
      exact .inl ⟨List.prefix_rfl, isCutShort_of_prefix_entries h List.prefix_rfl⟩
    · refine .inr ⟨payload, hleft, rfl, ?_⟩
      rw [decode_of_ending hrow (.terminal payload), henvelope]
      rfl

/-- Behind a terminal tag all is payload, also what looks like an entry. -/
example : Envelope.decode {} [0, 0, 1, 1, 49] = .ok ⟨none, none, [0, 1, 1, 49]⟩ := by cbv

end Envelope

end SealedToken
