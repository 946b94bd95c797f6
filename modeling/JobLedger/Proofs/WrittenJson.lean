import JobLedger.Json.Document
import JobLedger.Proofs.Numerals

/-!
# Written JSON

The text of a value is read as the document that says the value, with each number as its text is read. Strings
lose nothing by their escapes. A value whose numbers are whole and of at most 64 bits is read back from its
document exactly if it is not nested too deep.
-/
namespace JobLedger.Json

/-- The piece as which the written form of a character is read. -/
def pieceOf (c : Char) : Piece :=
  if c.toNat < 32 ∧ c ≠ '\x08' ∧ c ≠ '\t' ∧ c ≠ '\n' ∧ c ≠ '\x0c' ∧ c ≠ '\r' then .unit c.toNat else .char c

private theorem unit?_hexChars {n : Nat} (h : n < 32) :
    unit? '0' '0' (Text.hexChar (n / 16)) (Text.hexChar (n % 16)) = some n := by
  have : ∀ n < 32, unit? '0' '0' (Text.hexChar (n / 16)) (Text.hexChar (n % 16)) = some n := by decide
  exact this n h

private theorem pieces?_plain {c : Char} (hq : c ≠ '"') (hb : c ≠ '\\') (hc : ¬c.toNat < 32) (r : List Char)
    (found : List Piece) : pieces? (c :: r) found = pieces? r (.char c :: found) := by
  rw [pieces?.eq_def]
  split
  · rename_i heq
    exact absurd (List.cons.inj heq).1 hq
  · rename_i heq
    exact absurd (List.cons.inj heq).1 hb
  · rename_i heq
    exact absurd (List.cons.inj heq).1 hb
  · rename_i heq
    obtain ⟨rfl, rfl⟩ := List.cons.inj heq
    rw [if_neg hc]
  · rename_i heq
    cases heq

private theorem pieces?_escapeChar (c : Char) (r : List Char) (found : List Piece) :
    pieces? (escapeChar c ++ r) found = pieces? r (pieceOf c :: found) := by
  unfold escapeChar
  split
  · subst c; rfl
  split
  · subst c; rfl
  split
  · subst c; rfl
  split
  · subst c; rfl
  split
  · subst c; rfl
  split
  · subst c; rfl
  split
  · subst c; rfl
  split
  · rename_i h
    simp only [List.cons_append, List.nil_append, pieces?, unit?_hexChars h]
    simp [pieceOf, *]
  · rename_i hq hb _ _ _ _ _ h
    rw [List.cons_append, List.nil_append, pieces?_plain hq hb h]
    simp [pieceOf, h]

private theorem pieces?_escaped (cs r : List Char) (found : List Piece) :
    pieces? (cs.flatMap escapeChar ++ '"' :: r) found = some (found.reverse ++ cs.map pieceOf, r) := by
  induction cs generalizing found with
  | nil => simp [pieces?]
  | cons c cs ih =>
    rw [List.flatMap_cons, List.append_assoc, pieces?_escapeChar, ih]
    simp

private theorem assemble?_unit {u : Nat} (hh : isHighSurrogate u = false) (hl : isLowSurrogate u = false)
    (ps : List Piece) (found : List Char) :
    assemble? (.unit u :: ps) found = assemble? ps (Char.ofNat u :: found) := by
  rcases ps with _ | ⟨_ | v, ps⟩ <;> simp [assemble?, hh, hl]

private theorem assemble?_pieceOf (c : Char) (ps : List Piece) (found : List Char) :
    assemble? (pieceOf c :: ps) found = assemble? ps (c :: found) := by
  unfold pieceOf
  split
  · rename_i h
    have hsurrogate : ∀ u < 32, isHighSurrogate u = false ∧ isLowSurrogate u = false := by decide
    obtain ⟨hh, hl⟩ := hsurrogate c.toNat h.1
    rw [assemble?_unit hh hl, Char.ofNat_toNat]
  · rw [assemble?]

@[simp] theorem assemble?_pieces (cs found : List Char) :
    assemble? (cs.map pieceOf) found = some (found.reverse ++ cs) := by
  induction cs generalizing found with
  | nil => simp [assemble?]
  | cons c cs ih =>
    rw [List.map_cons, assemble?_pieceOf, ih]
    simp

namespace Token

/-- The token as which the text of a token is read. -/
def read : Token → Token
  | .number (some n) => .number n.reread
  | t => t

/-- The token has a value, and so a text. -/
def IsWritten : Token → Prop
  | .number none | .string none => False
  | _ => True

def isNumber : Token → Bool
  | .number _ => true
  | _ => false

/-- The text of a token is read as one token. Only a number depends on what follows. -/
theorem token?_chars {t : Token} (h : t.IsWritten) {r : List Char} (hr : t.isNumber = true → Parted r) :
    token? (t.chars ++ r) = some (t.read, r) := by
  cases t with
  | number n =>
    cases n with
    | none => exact h.elim
    | some n => exact n.token?_chars (hr rfl)
  | string s =>
    cases s with
    | none => exact h.elim
    | some s =>
      have hquote : chars (.string (some s)) ++ r = '"' :: (s.toList.flatMap escapeChar ++ '"' :: r) := by
        simp [chars, quote]
      rw [hquote]
      simp [token?, pieces?_escaped, assemble?_pieces, read]
  | bool b => cases b <;> rfl
  | _ => rfl

end Token

private theorem tokenize?_nil (found : List Token) : tokenize? [] found = some found.reverse := by
  rw [tokenize?]
  rfl

private theorem tokenize?_of_token? {cs r : List Char} {t : Token} (hgap : cs.dropWhile isGap = cs)
    (h : token? cs = some (t, r)) (found : List Token) : tokenize? cs found = tokenize? r (t :: found) := by
  have hne : cs ≠ [] := by
    rintro rfl
    exact absurd (length_of_token? h) (by simp)
  rw [tokenize?, hgap, if_neg hne]
  split
  · rename_i heq
    obtain ⟨rfl, rfl⟩ := Prod.mk.inj (Option.some.inj (heq.symm.trans h))
    rfl
  · rename_i heq
    cases heq.symm.trans h

namespace Token

private theorem isGap_of_isDigit {c : Char} (h : c.isDigit = true) : isGap c = false := by
  apply Bool.eq_false_iff.mpr
  intro hc
  simp only [isGap, Bool.or_eq_true, beq_iff_eq] at hc
  rcases hc with ((rfl | rfl) | rfl) | rfl <;> revert h <;> decide

/-- The text of a token does not start with white space. -/
private theorem dropWhile_chars {t : Token} (h : t.IsWritten) (r : List Char) :
    (t.chars ++ r).dropWhile isGap = t.chars ++ r := by
  cases t with
  | number n =>
    cases n with
    | none => exact h.elim
    | some n =>
      obtain ⟨c, cs, hc⟩ := List.exists_cons_of_ne_nil n.numeral_wellFormed.whole_ne_nil
      have hdigit : c.isDigit = true := n.numeral_wellFormed.whole_digits c (hc ▸ List.mem_cons_self)
      have hgap := isGap_of_isDigit hdigit
      simp only [chars, Option.map_some, Option.getD_some, n.chars_eq]
      split
      · rfl
      · simp [Numeral.chars, hc, hgap]
  | string s =>
    cases s with
    | none => exact h.elim
    | some s => rfl
  | bool b => cases b <;> rfl
  | _ => rfl

/-- The text of a token that is no number does not go on with a number before it. -/
private theorem parted_chars {t : Token} (h : t.IsWritten) (hn : t.isNumber = false) (r : List Char) :
    Parted (t.chars ++ r) := by
  cases t with
  | number n => cases hn
  | string s =>
    cases s with
    | none => exact h.elim
    | some s => exact parted_cons (by decide)
  | bool b => cases b <;> exact parted_cons (by decide)
  | _ => exact parted_cons (by decide)

/-- Every token has a text, and no number stands right before another. -/
def Readable : List Token → Prop
  | [] => True
  | t :: ts =>
    t.IsWritten ∧ (t.isNumber = true → ∀ u, ts.head? = some u → u.isNumber = false) ∧ Readable ts

private theorem tokenize?_chars {ts : List Token} (h : Readable ts) (found : List Token) :
    tokenize? (ts.flatMap chars) found = some (found.reverse ++ ts.map read) := by
  induction ts generalizing found with
  | nil => simp [tokenize?_nil]
  | cons t ts ih =>
    obtain ⟨hw, hn, hts⟩ := h
    have hp : t.isNumber = true → Parted (ts.flatMap chars) := by
      intro ht
      cases ts with
      | nil => exact parted_nil
      | cons u ts => exact parted_chars hts.1 (hn ht u rfl) _
    rw [List.flatMap_cons, tokenize?_of_token? (dropWhile_chars hw _) (token?_chars hw hp), ih hts]
    simp

end Token

/-- The tokens are ones that may follow a value: they do not start with a number. -/
def Following (ts : List Token) : Prop := Token.Readable ts ∧ ∀ u, ts.head? = some u → u.isNumber = false

private theorem following_nil : Following [] := ⟨trivial, nofun⟩

private theorem following_cons {t : Token} {ts : List Token} (ht : t.IsWritten) (hn : t.isNumber = false)
    (h : Token.Readable ts) : Following (t :: ts) := by
  refine ⟨⟨ht, fun h' => ?_, h⟩, ?_⟩
  · rw [hn] at h'
    cases h'
  · rintro u ⟨⟩
    exact hn

mutual

private theorem readable_tokens : ∀ (v : Json) {ts : List Token}, Following ts → Token.Readable (v.tokens ++ ts)
  | .null, _, h | .bool _, _, h | .string _, _, h => ⟨trivial, nofun, h.1⟩
  | .number _, _, h => ⟨trivial, fun _ => h.2, h.1⟩
  | .array items, _, h => ⟨trivial, nofun, readable_tokensOfItems items h⟩
  | .object members, _, h => ⟨trivial, nofun, readable_tokensOfMembers members h⟩

private theorem readable_tokensOfItems :
    ∀ (vs : List Json) {ts : List Token}, Following ts → Token.Readable (tokensOfItems vs ++ ts)
  | [], _, h => ⟨trivial, nofun, h.1⟩
  | v :: vs, _, h => by
    rw [tokensOfItems, List.append_assoc]
    exact readable_tokens v (following_tokensAfterItem vs h)

private theorem following_tokensAfterItem :
    ∀ (vs : List Json) {ts : List Token}, Following ts → Following (tokensAfterItem vs ++ ts)
  | [], _, h => following_cons trivial rfl h.1
  | v :: vs, _, h => by
    simp only [tokensAfterItem, List.cons_append, List.append_assoc]
    exact following_cons trivial rfl (readable_tokens v (following_tokensAfterItem vs h))

private theorem readable_tokensOfMembers :
    ∀ (ms : List (String × Json)) {ts : List Token}, Following ts → Token.Readable (tokensOfMembers ms ++ ts)
  | [], _, h => ⟨trivial, nofun, h.1⟩
  | (_, v) :: ms, _, h => by
    rw [tokensOfMembers, List.append_assoc]
    exact ⟨trivial, nofun, trivial, nofun, readable_tokens v (following_tokensAfterMember ms h)⟩

private theorem following_tokensAfterMember :
    ∀ (ms : List (String × Json)) {ts : List Token}, Following ts → Following (tokensAfterMember ms ++ ts)
  | [], _, h => following_cons trivial rfl h.1
  | (_, v) :: ms, _, h => by
    simp only [tokensAfterMember, List.cons_append, List.append_assoc]
    exact following_cons trivial rfl
      ⟨trivial, nofun, trivial, nofun, readable_tokens v (following_tokensAfterMember ms h)⟩

end

private theorem tokenize?_chars (v : Json) : tokenize? v.chars [] = some (v.tokens.map Token.read) := by
  have h := readable_tokens v following_nil
  rw [List.append_nil] at h
  exact Token.tokenize?_chars h []

namespace Document

mutual

/-- The document as which the text of a value is read. -/
def written : Json → Document
  | .null => .null
  | .bool b => .bool b
  | .number n => .number n.reread
  | .string s => .string (some s)
  | .array items => .array (writtenItems items)
  | .object members => .object (writtenMembers members)

def writtenItems : List Json → List Document
  | [] => []
  | v :: vs => written v :: writtenItems vs

def writtenMembers : List (String × Json) → List (Option String × Document)
  | [] => []
  | (k, v) :: ms => (some k, written v) :: writtenMembers ms

end

mutual

private theorem steps?_tokens : ∀ (v : Json) (ps : List Place) (ts : List Token),
    steps? (.value ps) (v.tokens.map Token.read ++ ts) = steps? (put (written v) ps) ts
  | .null, _, _ | .bool _, _, _ | .number _, _, _ | .string _, _, _ => rfl
  | .array items, ps, ts => steps?_tokensOfItems items ps ts
  | .object members, ps, ts => steps?_tokensOfMembers members ps ts

private theorem steps?_tokensOfItems : ∀ (vs : List Json) (ps : List Place) (ts : List Token),
    steps? (.firstItem ps) ((tokensOfItems vs).map Token.read ++ ts) =
      steps? (put (.array (writtenItems vs)) ps) ts
  | [], _, _ => rfl
  | v :: vs, ps, ts => by
    have hfirst : ∀ us, steps? (.firstItem ps) (v.tokens.map Token.read ++ us) =
        steps? (.value (.item [] :: ps)) (v.tokens.map Token.read ++ us) := by
      intro us
      cases v <;> rfl
    rw [tokensOfItems, List.map_append, List.append_assoc, hfirst, steps?_tokens v]
    exact steps?_tokensAfterItem vs [written v] ps ts

private theorem steps?_tokensAfterItem :
    ∀ (vs : List Json) (before : List Document) (ps : List Place) (ts : List Token),
    steps? (.afterItem before ps) ((tokensAfterItem vs).map Token.read ++ ts) =
      steps? (put (.array (before.reverse ++ writtenItems vs)) ps) ts
  | [], before, _, _ => by
    rw [writtenItems, List.append_nil]
    rfl
  | v :: vs, before, ps, ts => by
    have hcomma : ∀ us, steps? (.afterItem before ps) (Token.comma :: us) =
        steps? (.value (.item before :: ps)) us := fun _ => rfl
    simp only [tokensAfterItem, List.cons_append, List.map_cons, List.map_append, List.append_assoc, Token.read]
    rw [hcomma, steps?_tokens v]
    refine (steps?_tokensAfterItem vs (written v :: before) ps ts).trans ?_
    simp [writtenItems]

private theorem steps?_tokensOfMembers : ∀ (ms : List (String × Json)) (ps : List Place) (ts : List Token),
    steps? (.firstName ps) ((tokensOfMembers ms).map Token.read ++ ts) =
      steps? (put (.object (writtenMembers ms)) ps) ts
  | [], _, _ => rfl
  | (k, v) :: ms, ps, ts => by
    have hname : ∀ us, steps? (.firstName ps) (Token.string (some k) :: .colon :: us) =
        steps? (.value (.member [] (some k) :: ps)) us := fun _ => rfl
    simp only [tokensOfMembers, List.cons_append, List.map_cons, List.map_append, List.append_assoc, Token.read]
    rw [hname, steps?_tokens v]
    exact steps?_tokensAfterMember ms [(some k, written v)] ps ts

private theorem steps?_tokensAfterMember : ∀ (ms : List (String × Json)) (before : List (Option String × Document))
    (ps : List Place) (ts : List Token),
    steps? (.afterMember before ps) ((tokensAfterMember ms).map Token.read ++ ts) =
      steps? (put (.object (before.reverse ++ writtenMembers ms)) ps) ts
  | [], before, _, _ => by
    rw [writtenMembers, List.append_nil]
    rfl
  | (k, v) :: ms, before, ps, ts => by
    have hname : ∀ us, steps? (.afterMember before ps) (Token.comma :: .string (some k) :: .colon :: us) =
        steps? (.value (.member before (some k) :: ps)) us := fun _ => rfl
    simp only [tokensAfterMember, List.cons_append, List.map_cons, List.map_append, List.append_assoc, Token.read]
    rw [hname, steps?_tokens v]
    refine (steps?_tokensAfterMember ms ((some k, written v) :: before) ps ts).trans ?_
    simp [writtenMembers]

end

/-- The text of a value says the document of the value. -/
theorem ofText?_text (v : Json) : ofText? v.text = some (written v) := by
  have htokens : ofTokens? (v.tokens.map Token.read) = some (written v) := by
    have h := steps?_tokens v [] []
    rw [List.append_nil] at h
    rw [ofTokens?, h]
    rfl
  rw [ofText?, Json.text, String.toList_ofList, tokenize?_chars, Option.bind_some, htokens]

end Document

end JobLedger.Json
