import JobLedger.Job.Error
import JobLedger.Job.Query
import JobLedger.Proofs.HexDigits
import JobLedger.Proofs.IdentifierText
import JobLedger.Proofs.TrimmedText
import Mathlib.Data.String.Basic

/-!
# Spellings of identifiers

A job identifier has four spellings, all made of the thirty-two digits of its text in any case: with hyphens
between the groups, without, in braces, and behind a fixed word. Between white space, these and no other texts
are read as the identifier. Identifiers stand in the order of their texts.
-/
namespace JobLedger.JobId

/-- Characters are the digits of the identifier, in groups with hyphens between them. -/
def IsGrouped (id : JobId) (cs : List Char) : Prop :=
  ∃ a b c d e : List Char, a.length = 8 ∧ b.length = 4 ∧ c.length = 4 ∧ d.length = 4 ∧ e.length = 12 ∧
    (a ++ b ++ c ++ d ++ e).map Char.toLower = id.digits ∧
    cs = a ++ '-' :: b ++ '-' :: c ++ '-' :: d ++ '-' :: e

/-- Characters spell the identifier. -/
inductive IsSpelled (id : JobId) : List Char → Prop where
  | plain {ds : List Char} (h : ds.map Char.toLower = id.digits) : IsSpelled id ds
  | grouped {cs : List Char} (h : id.IsGrouped cs) : IsSpelled id cs
  | braced {cs : List Char} (h : id.IsGrouped cs) : IsSpelled id ('\x7b' :: cs ++ ['\x7d'])
  | named {scheme cs : List Char} (hs : scheme.map Char.toLower = "urn:uuid:".toList) (h : id.IsGrouped cs) :
    IsSpelled id (scheme ++ cs)

/-- The text spells the identifier between white space. -/
def Spells (s : String) (id : JobId) : Prop :=
  ∃ before cs behind, s.toList = before ++ cs ++ behind ∧ (∀ c ∈ before, Text.isBlank c = true) ∧
    (∀ c ∈ behind, Text.isBlank c = true) ∧ id.IsSpelled cs

variable {id : JobId} {cs : List Char}

private theorem length_of_digits (h : cs.map Char.toLower = id.digits) : cs.length = 32 := by
  rw [← List.length_map (f := Char.toLower), h, id.length_digits]

private theorem ofDigits?_eq_some : ofDigits? cs = some id ↔ cs.map Char.toLower = id.digits := by
  constructor
  · intro h
    rw [ofDigits?] at h
    split at h
    · rename_i hlength
      obtain ⟨n, hn, rfl⟩ := Option.map_eq_some_iff.1 h
      obtain ⟨hlt, hcs⟩ := Text.map_toLower_of_hexNumber? hn
      have hbits : (BitVec.ofNat 128 n).toNat = n := by
        rw [hlength] at hlt
        exact Nat.mod_eq_of_lt hlt
      rw [hcs, hlength, digits, hbits]
    · cases h
  · intro h
    have hread := id.ofDigits?_digits
    rw [← h, ofDigits?, List.length_map, Text.hexNumber?_map_toLower] at hread
    exact hread

private theorem isGrouped_hyphenate {ds : List Char} (h : ds.map Char.toLower = id.digits) :
    id.IsGrouped (hyphenate ds) := by
  have hlength := length_of_digits h
  refine ⟨ds.take 8, (ds.drop 8).take 4, (ds.drop 12).take 4, (ds.drop 16).take 4, ds.drop 20, by simp [hlength],
    by simp [hlength], by simp [hlength], by simp [hlength], by simp [hlength], ?_, rfl⟩
  rw [List.append_assoc, List.append_assoc, List.append_assoc, join_groups, h]

private theorem IsGrouped.exists_hyphenate (h : id.IsGrouped cs) :
    ∃ ds : List Char, ds.map Char.toLower = id.digits ∧ cs = hyphenate ds := by
  obtain ⟨a, b, c, d, e, ha, hb, hc, hd, he, hdigits, rfl⟩ := h
  refine ⟨_, hdigits, ?_⟩
  simp [hyphenate, List.drop_append, List.drop_of_length_le, ha, hb, hc, hd]

private theorem ofGroups?_eq_some : ofGroups? cs = some id ↔ id.IsGrouped cs := by
  constructor
  · intro h
    rw [ofGroups?] at h
    split at h
    · rename_i hcs
      rw [hcs]
      exact isGrouped_hyphenate (ofDigits?_eq_some.1 h)
    · cases h
  · intro h
    obtain ⟨ds, hds, rfl⟩ := h.exists_hyphenate
    rw [ofGroups?, dehyphenate_hyphenate (length_of_digits hds), if_pos rfl, ofDigits?_eq_some]
    exact hds

theorem IsGrouped.length (h : id.IsGrouped cs) : cs.length = 36 := by
  obtain ⟨ds, hds, rfl⟩ := h.exists_hyphenate
  exact length_hyphenate (length_of_digits hds)

private theorem length_scheme {scheme : List Char} (h : scheme.map Char.toLower = "urn:uuid:".toList) :
    scheme.length = 9 := by
  rw [← List.length_map (f := Char.toLower), h]
  rfl

private theorem eq_between {first last : Char} (hlength : cs.length = 38) (hfirst : cs.head? = some first)
    (hlast : cs.getLast? = some last) : cs = first :: (cs.drop 1).take 36 ++ [last] := by
  obtain ⟨front, rfl⟩ := List.getLast?_eq_some_iff.1 hlast
  cases front with
  | nil => cases hlength
  | cons c inner =>
    obtain rfl : c = first := Option.some.inj hfirst
    have hinner : inner.length = 36 := by simpa using hlength
    change _ = c :: (inner ++ [last]).take 36 ++ [last]
    rw [List.take_left' hinner]

/-- Characters are read as an identifier exactly if they spell it. -/
private theorem ofChars?_eq_some : ofChars? cs = some id ↔ id.IsSpelled cs := by
  constructor
  · intro h
    unfold ofChars? at h
    split at h
    · exact .plain (ofDigits?_eq_some.1 h)
    split at h
    · exact .grouped (ofGroups?_eq_some.1 h)
    split at h
    · rename_i hbraces
      rw [eq_between hbraces.1 hbraces.2.1 hbraces.2.2]
      exact .braced (ofGroups?_eq_some.1 h)
    split at h
    · rename_i hscheme
      rw [← List.take_append_drop 9 cs]
      exact .named hscheme.2 (ofGroups?_eq_some.1 h)
    · cases h
  · intro h
    unfold ofChars?
    cases h with
    | plain h => rw [if_pos (length_of_digits h), ofDigits?_eq_some.2 h]
    | grouped h => rw [h.length, if_neg (by decide), if_pos rfl, ofGroups?_eq_some.2 h]
    | @braced cs h =>
      have hlength : ('\x7b' :: cs ++ ['\x7d']).length = 38 := by simp [h.length]
      have hinner : (('\x7b' :: cs ++ ['\x7d']).drop 1).take 36 = cs := List.take_left' h.length
      rw [hlength, if_neg (by decide), if_neg (by decide), if_pos ⟨rfl, rfl, List.getLast?_concat⟩, hinner,
        ofGroups?_eq_some.2 h]
    | @named scheme cs hs h =>
      have hnine := length_scheme hs
      have hlength : (scheme ++ cs).length = 45 := by rw [List.length_append, hnine, h.length]
      rw [hlength, List.take_left' hnine, List.drop_left' hnine, if_neg (by decide), if_neg (by decide),
        if_neg (fun hbraces => absurd hbraces.1 (by decide)), if_pos ⟨rfl, hs⟩, ofGroups?_eq_some.2 h]

private theorem isBlank_toLower (c : Char) : Text.isBlank c.toLower = Text.isBlank c := by
  rcases Text.toLower_cases c with ⟨hlow, hhigh, h⟩ | ⟨-, h⟩
  · simp only [Text.isBlank, h]
    grind
  · rw [h]

private theorem isBlank_of_digits (h : cs.map Char.toLower = id.digits) : ∀ c ∈ cs, Text.isBlank c = false := by
  intro c hc
  have hmem : c.toLower ∈ id.digits := h ▸ List.mem_map_of_mem hc
  obtain ⟨d, hd, hchar⟩ := Text.exists_of_mem_hexDigits hmem
  have hdigit : ∀ d < 16, Text.isBlank (Text.hexChar d) = false := by decide
  rw [← isBlank_toLower, hchar, hdigit d hd]

theorem IsGrouped.isBlank (h : id.IsGrouped cs) : ∀ c ∈ cs, Text.isBlank c = false := by
  obtain ⟨a, b, c, d, e, -, -, -, -, -, hdigits, rfl⟩ := h
  intro x hx
  have hx : x = '-' ∨ x ∈ a ++ b ++ c ++ d ++ e := by
    simp only [List.mem_append, List.mem_cons] at hx ⊢
    tauto
  rcases hx with rfl | hx
  · decide
  · exact isBlank_of_digits hdigits x hx

/-- There is no white space in a spelling. -/
theorem IsSpelled.isBlank (h : id.IsSpelled cs) : ∀ c ∈ cs, Text.isBlank c = false := by
  cases h with
  | plain h => exact isBlank_of_digits h
  | grouped h => exact h.isBlank
  | braced h =>
    intro c hc
    rw [List.cons_append, List.mem_cons, List.mem_append, List.mem_singleton] at hc
    rcases hc with rfl | hc | rfl
    · decide
    · exact h.isBlank c hc
    · decide
  | named hs h =>
    intro c hc
    rcases List.mem_append.1 hc with hc | hc
    · have hscheme : ("urn:uuid:".toList.any Text.isBlank) = false := by decide
      rw [← isBlank_toLower]
      exact Bool.eq_false_iff.2 (List.any_eq_false.1 hscheme _ (hs ▸ List.mem_map_of_mem hc))
    · exact h.isBlank c hc

/-- A text is read as an identifier exactly if it spells it. -/
private theorem parse_eq_ok {s : String} : JobId.parse s = .ok id ↔ Spells s id := by
  have hread : JobId.parse s = .ok id ↔ id.IsSpelled (Text.trimChars s.toList) := by
    rw [← ofChars?_eq_some, ← Text.toList_trim, ← ofText?, JobId.parse]
    cases ofText? (Text.trim s) <;> simp
  rw [hread]
  constructor
  · intro h
    obtain ⟨before, behind, hs, hbefore, hbehind⟩ := Text.eq_trimChars_between s.toList
    exact ⟨before, _, behind, hs, hbefore, hbehind, h⟩
  · rintro ⟨before, cs, behind, hs, hbefore, hbehind, h⟩
    have hends : ∀ c, cs.head? = some c ∨ cs.getLast? = some c → Text.isBlank c = false := by
      rintro c (hc | hc)
      · exact h.isBlank c (List.mem_of_head? hc)
      · exact h.isBlank c (List.mem_of_getLast? hc)
    rwa [hs, Text.trimChars_between hbefore hbehind hends]

private theorem parse_eq_error {s : String} {e : JobError} :
    JobId.parse s = .error e ↔ (∀ id, ¬ Spells s id) ∧ e = .invalidPayload (.jobId s) := by
  have hread : ∀ id, Spells s id ↔ ofText? (Text.trim s) = some id := by
    intro id
    rw [← parse_eq_ok, JobId.parse]
    cases ofText? (Text.trim s) <;> simp
  simp only [hread, JobId.parse]
  cases ofText? (Text.trim s) <;> simp [eq_comm]

private theorem hyphenate_lt {ds es : List Char} (hds : ds.length = 32) (hes : es.length = 32) (h : ds < es) :
    hyphenate ds < hyphenate es := by
  have hgroup : ∀ n k, ((ds.drop n).take k).length = ((es.drop n).take k).length := by simp [hds, hes]
  have hfirst : (ds.take 8).length = (es.take 8).length := hgroup 0 8
  rw [← join_groups ds, ← join_groups es] at h
  simp only [Text.append_lt_append_iff hfirst, Text.append_lt_append_iff (hgroup _ _)] at h
  simp only [hyphenate, List.append_assoc, List.cons_append, Text.append_lt_append_iff hfirst,
    Text.append_lt_append_iff (hgroup _ _), List.cons_lt_cons_iff, Char.lt_irrefl, false_or, true_and]
  exact h

private theorem text_lt {a b : JobId} (h : a.bits.toNat < b.bits.toNat) : a.text < b.text := by
  rw [String.lt_iff_toList_lt, text, text, String.toList_ofList, String.toList_ofList]
  exact hyphenate_lt a.length_digits b.length_digits (Text.hexDigits_lt h b.bits.isLt)

private theorem order_eq_compare_text (a b : JobId) : a.order b = compare a.text b.text := by
  rcases Nat.lt_trichotomy a.bits.toNat b.bits.toNat with h | h | h
  · rw [order, Nat.compare_eq_lt.2 h, compare_lt_iff_lt.2 (text_lt h)]
  · obtain rfl : a = b := by
      cases a; cases b
      exact congrArg JobId.mk (BitVec.eq_of_toNat_eq h)
    rw [order, Nat.compare_eq_eq.2 rfl, compare_eq_iff_eq.2 rfl]
  · rw [order, Nat.compare_eq_gt.2 h, compare_gt_iff_gt.2 (text_lt h)]

private theorem spells_text (id : JobId) : Spells id.text id :=
  ⟨[], id.text.toList, [], by simp, by simp, by simp, ofChars?_eq_some.1 id.ofText?_text⟩

/-- Reading accepts the spellings of identifiers, each as the one identifier that it spells, and refuses all other
texts. What is written is read back, and comparing identifiers is comparing their texts, also where a listing breaks
ties. -/
theorem spellings_are_exact :
    (∀ s id, JobId.parse s = .ok id ↔ Spells s id) ∧
    (∀ s a b, Spells s a → Spells s b → a = b) ∧
    (∀ s e, JobId.parse s = .error e ↔ (∀ id, ¬ Spells s id) ∧ e = .invalidPayload (.jobId s)) ∧
    (∀ id : JobId, JobId.parse id.text = .ok id) ∧
    (∀ a b : JobId, a.order b = compare a.text b.text) ∧
    ∀ r t : JobRecord, ListQuery.listedBefore r t =
      ((t.createdAt.order r.createdAt).then (compare t.id.text r.id.text)).isLE := by
  refine ⟨fun s id => parse_eq_ok, fun s a b ha hb => ?_, fun s e => parse_eq_error, fun id => ?_,
    order_eq_compare_text, fun r t => ?_⟩
  · have hread : Except.ok a = .ok b := (parse_eq_ok.2 ha).symm.trans (parse_eq_ok.2 hb)
    exact Except.ok.inj hread
  · exact parse_eq_ok.2 id.spells_text
  · rw [ListQuery.listedBefore, order_eq_compare_text]

private theorem spells_between_spaces :
    Spells "\u3000URN:uuid:0190A5B2-7C3D-7e4f-8a1b-2C3D4e5f6071\n" ⟨0x0190a5b27c3d7e4f8a1b2c3d4e5f6071⟩ :=
  ⟨['\u3000'], "URN:uuid:0190A5B2-7C3D-7e4f-8a1b-2C3D4e5f6071".toList, ['\n'], by decide,
    List.forall_mem_singleton.2 (by decide), List.forall_mem_singleton.2 (by decide),
    @IsSpelled.named _ "URN:uuid:".toList "0190A5B2-7C3D-7e4f-8a1b-2C3D4e5f6071".toList (by decide)
      ⟨"0190A5B2".toList, "7C3D".toList, "7e4f".toList, "8a1b".toList, "2C3D4e5f6071".toList, by decide, by decide,
        by decide, by decide, by decide, by decide, by decide⟩⟩

/-- A text with capitals and white space is read, and spells no other identifier. -/
theorem capitals_between_spaces_are_read :
    JobId.parse "\u3000URN:uuid:0190A5B2-7C3D-7e4f-8a1b-2C3D4e5f6071\n" =
      .ok ⟨0x0190a5b27c3d7e4f8a1b2c3d4e5f6071⟩ ∧
    ∀ id, Spells "\u3000URN:uuid:0190A5B2-7C3D-7e4f-8a1b-2C3D4e5f6071\n" id →
      id = ⟨0x0190a5b27c3d7e4f8a1b2c3d4e5f6071⟩ :=
  ⟨(spellings_are_exact.1 _ _).2 spells_between_spaces,
    fun _ h => spellings_are_exact.2.1 _ _ _ h spells_between_spaces⟩

end JobLedger.JobId
