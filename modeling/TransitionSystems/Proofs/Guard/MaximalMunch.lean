import TransitionSystems.Proofs.Decimal
import TransitionSystems.Proofs.Guard.Lexemes
import TransitionSystems.Proofs.Text.Lines

/-!
# The scan takes longest lexemes

A scan passes spaces and longest lexemes until it comes to the end of the source or to a byte that
starts no lexeme. The tokens that it makes on the way stand apart in the source at their columns and
leave out spaces only; their texts, with single spaces between them, are cut into the same lexemes
again.

Reports end before their first zero byte. So the report of a zero byte that starts no lexeme has no
column.
-/

namespace TransitionSystems.Guard

/-! ## Places of tokens -/

namespace Token

/-- The column behind a token. -/
def stop (token : Token) : Nat :=
  token.position.column + token.text.length

/-- What a token is, apart from its position. -/
def lexeme (token : Token) : TokenKind × Text :=
  (token.kind, token.text)

/-- A token is the longest lexeme at its column, and a word is not the end of a longer one. -/
def StandsIn (token : Token) (line : Nat) (source : Text) : Prop :=
  ∃ front back, source = front ++ token.text ++ back ∧ token.position = ⟨line, front.length + 1⟩ ∧
    IsLexeme back token.text token.kind ∧
    (token.text.head?.any startsIdentifier → front.getLast?.any continuesIdentifier = false)

/-- A token starts to the left of another one and ends before it. -/
def Precedes (token next : Token) : Prop :=
  token.position.column < next.position.column ∧ token.stop ≤ next.position.column

/-- A column lies within a token. -/
def Covers (token : Token) (column : Nat) : Prop :=
  token.position.column ≤ column ∧ column < token.stop

end Token

/-- A beginning of a source is cut into tokens, and the rest follows it. -/
structure IsCut (line : Nat) (before : Text) (tokens : List Token) (rest : Text) : Prop where
  stands : ∀ token ∈ tokens, token.StandsIn line (before ++ rest)
  ordered : tokens.Pairwise Token.Precedes
  stop_le : ∀ token ∈ tokens, token.stop ≤ before.length + 1
  covers : ∀ place byte, before[place]? = some byte → Text.isSpace byte = true ∨
    ∃ token ∈ tokens, token.Covers (place + 1)
  /-- No word of the rest goes on with a word of the beginning. -/
  separate : rest.head?.any startsIdentifier → before.getLast?.any continuesIdentifier = false

namespace IsCut

variable {line : Nat} {before rest : Text} {tokens : List Token}

theorem start (line : Nat) (rest : Text) : IsCut line [] [] rest where
  stands := by simp
  ordered := .nil
  stop_le := by simp
  covers := by simp
  separate _ := rfl

theorem space {byte : UInt8} (cut : IsCut line before tokens (byte :: rest))
    (space : Text.isSpace byte) : IsCut line (before ++ [byte]) tokens rest where
  stands := by simpa using cut.stands
  ordered := cut.ordered
  stop_le token listed := by
    have stop_le := cut.stop_le token listed
    rw [List.length_append]
    exact Nat.le_add_right_of_le stop_le
  covers place other found := by
    rw [List.getElem?_append] at found
    split at found
    · exact cut.covers place other found
    · obtain rfl := List.mem_singleton.1 (List.mem_of_getElem? found)
      exact .inl space
  separate _ := by simp [continuesIdentifier_of_isSpace space]

theorem ordered_concat (cut : IsCut line before tokens rest) {last : Token}
    (column : last.position.column = before.length + 1) :
    (tokens ++ [last]).Pairwise Token.Precedes := by
  rw [List.pairwise_append]
  refine ⟨cut.ordered, List.pairwise_singleton .., fun token listed last' same => ?_⟩
  obtain rfl := List.mem_singleton.1 same
  obtain ⟨front, back, -, -, found, -⟩ := cut.stands token listed
  have nonempty := List.length_pos_of_ne_nil found.bytes.1
  have stop_le := cut.stop_le token listed
  rw [Token.Precedes, column]
  exact ⟨Nat.lt_of_lt_of_le (Nat.lt_add_of_pos_right nonempty) stop_le, stop_le⟩

theorem covers_concat (cut : IsCut line before tokens rest) (last : Token) {place : Nat}
    {byte : UInt8} (found : before[place]? = some byte) :
    Text.isSpace byte = true ∨ ∃ token ∈ tokens ++ [last], token.Covers (place + 1) := by
  refine (cut.covers place byte found).imp_right ?_
  rintro ⟨token, listed, covers⟩
  exact ⟨token, List.mem_append_left _ listed, covers⟩

private theorem separate_of_isLexeme {text : Text} {kind : TokenKind}
    (lexeme : IsLexeme rest text kind) (starts : rest.head?.any startsIdentifier) :
    text.getLast?.any continuesIdentifier = false := by
  cases lexeme with
  | word _ _ stops =>
      cases rest with
      | nil => cases starts
      | cons byte rest =>
          have stops := stops byte rfl
          rw [continuesIdentifier_of_starts starts] at stops
          cases stops
  | operator spelling =>
      rw [Option.any_eq_false]
      intro byte last
      exact ((operators_signs _ spelling).2 byte (List.mem_of_getLast? last)).2.1

theorem lexeme {text : Text} {kind : TokenKind} (cut : IsCut line before tokens (text ++ rest))
    (lexeme : IsLexeme rest text kind) :
    IsCut line (before ++ text) (tokens ++ [⟨kind, text, ⟨line, before.length + 1⟩⟩]) rest where
  stands := by
    rw [List.forall_mem_append, List.append_assoc, List.forall_mem_singleton]
    refine ⟨cut.stands, before, rest, (List.append_assoc ..).symm, rfl, lexeme, fun starts => ?_⟩
    exact cut.separate (by cases text with | nil => cases starts | cons => exact starts)
  ordered := cut.ordered_concat rfl
  stop_le := by
    rw [List.forall_mem_append, List.forall_mem_singleton, List.length_append]
    refine ⟨fun token listed => ?_, ?_⟩
    · have stop_le := cut.stop_le token listed
      omega
    · change before.length + 1 + text.length ≤ _
      omega
  covers place byte found := by
    rw [List.getElem?_append] at found
    split at found
    · exact cut.covers_concat _ found
    · next outside =>
        obtain ⟨inside, -⟩ := List.getElem?_eq_some_iff.1 found
        refine .inr ⟨_, List.mem_append_right _ (List.mem_singleton.2 rfl), ?_⟩
        change before.length + 1 ≤ place + 1 ∧ place + 1 < before.length + 1 + text.length
        omega
  separate starts := by
    rw [List.getLast?_append_of_ne_nil _ lexeme.bytes.1]
    exact separate_of_isLexeme lexeme starts

end IsCut

/-! ## Runs of the scan -/

/-- The scan passes a beginning of a source, which it cuts into tokens, and comes to the rest. -/
inductive Passes (line : Nat) : (before : Text) → (tokens : List Token) → (rest : Text) → Prop
  | start (rest : Text) : Passes line [] [] rest
  | space {before rest : Text} {tokens : List Token} {byte : UInt8}
      (passed : Passes line before tokens (byte :: rest)) (space : Text.isSpace byte) :
      Passes line (before ++ [byte]) tokens rest
  | lexeme {before text rest : Text} {tokens : List Token} {kind : TokenKind}
      (passed : Passes line before tokens (text ++ rest)) (lexeme : IsLexeme rest text kind) :
      Passes line (before ++ text) (tokens ++ [⟨kind, text, ⟨line, before.length + 1⟩⟩]) rest

/-- The scan comes to a byte that is no space and starts neither a word nor an operator. -/
structure StopsAt (line : Nat) (before : Text) (byte : UInt8) (rest : Text) : Prop where
  exists_passes : ∃ tokens, Passes line before tokens (byte :: rest)
  solid : Text.isSpace byte = false
  noWord : startsIdentifier byte = false
  noOperator : ∀ operator ∈ operators, ¬operator.1 <+: byte :: rest

theorem IsLexeme.scans {line column : Nat} {text rest : Text} {kind : TokenKind}
    (lexeme : IsLexeme rest text kind) :
    Scans line column text [⟨kind, text, ⟨line, column⟩⟩] rest := by
  obtain ⟨nonempty, solid⟩ := lexeme.bytes
  refine .lexeme nonempty ?_ (lexeme?_eq_some_iff.2 ⟨rest, rfl, lexeme⟩)
  rw [Option.any_eq_false]
  exact fun byte first => (solid byte (List.mem_of_head? first)).1

namespace Passes

variable {line : Nat} {before rest : Text} {tokens : List Token}

theorem isCut (passed : Passes line before tokens rest) : IsCut line before tokens rest := by
  induction passed with
  | start rest => exact .start line rest
  | space _ space cut => exact cut.space space
  | lexeme _ lexeme cut => exact cut.lexeme lexeme

theorem scans (passed : Passes line before tokens rest) : Scans line 1 before tokens rest := by
  induction passed with
  | start rest => exact .nil
  | @space before rest tokens byte _ space scans =>
      rw [← List.append_nil tokens]
      exact scans.append (.blank space)
  | @lexeme before text rest tokens kind _ lexeme scans =>
      rw [Nat.add_comm]
      exact scans.append lexeme.scans

/-- From every place the scan goes on to the end of the source or to a byte at which it stops. -/
theorem ends_or_stops (passed : Passes line before tokens rest) :
    (∃ inside, Passes line (before ++ rest) inside []) ∨
      ∃ before' byte rest', before ++ rest = before' ++ byte :: rest' ∧
        StopsAt line before' byte rest' := by
  induction measure : rest.length using Nat.strong_induction_on generalizing before tokens rest with
  | h length induction =>
      subst measure
      cases rest with
      | nil => exact .inl ⟨tokens, by rwa [List.append_nil]⟩
      | cons byte rest =>
          by_cases space : Text.isSpace byte
          · have further := induction rest.length (Nat.lt_succ_self _) (passed.space space) rfl
            rwa [List.append_assoc] at further
          cases found : lexeme? (byte :: rest) with
          | none =>
              obtain ⟨noWord, noOperator⟩ := lexeme?_eq_none_iff.1 found
              have noWord : startsIdentifier byte = false := eq_false_of_ne_true noWord
              exact .inr ⟨before, byte, rest, rfl, ⟨tokens, passed⟩,
                eq_false_of_ne_true space, noWord, noOperator⟩
          | some taken =>
              obtain ⟨rest', split, lexeme⟩ := lexeme?_eq_some_iff.1 found
              rw [split] at passed ⊢
              have nonempty := List.length_pos_of_ne_nil lexeme.bytes.1
              have shorter : rest'.length < (byte :: rest).length := by
                rw [split, List.length_append]
                exact Nat.lt_add_of_pos_left nonempty
              have further := induction rest'.length shorter (passed.lexeme lexeme) rfl
              rwa [List.append_assoc] at further

theorem tokenise {source : Text} (passed : Passes line source tokens []) :
    tokenise source line = .ok (tokens ++ [⟨.endOfInput, [], ⟨line, source.length + 1⟩⟩]) := by
  have scans := passed.scans
  rw [Scans, List.append_nil, Nat.add_comm] at scans
  exact scans

end Passes

theorem StopsAt.tokenise {line : Nat} {before rest : Text} {byte : UInt8}
    (stops : StopsAt line before byte rest) :
    tokenise (before ++ byte :: rest) line =
      .error (.guard ⟨line, before.length + 1⟩ (.byte byte)) := by
  obtain ⟨tokens, passed⟩ := stops.exists_passes
  have nothing : lexeme? (byte :: rest) = none :=
    lexeme?_eq_none_iff.2 ⟨by simp [stops.noWord], stops.noOperator⟩
  have scans := passed.scans
  rw [Scans, scan, if_neg (by simp [stops.solid]), nothing, Nat.add_comm] at scans
  exact scans

theorem tokenise_eq_ok_iff {source : Text} {line : Nat} {tokens : List Token} :
    tokenise source line = .ok tokens ↔
      ∃ inside, Passes line source inside [] ∧
        tokens = inside ++ [⟨.endOfInput, [], ⟨line, source.length + 1⟩⟩] := by
  constructor
  · intro scanned
    rcases (Passes.start source).ends_or_stops with ⟨inside, passed⟩ | ⟨_, _, _, split, stops⟩
    · have passed : Passes line source inside [] := passed
      exact ⟨inside, passed, Except.ok.inj (scanned.symm.trans passed.tokenise)⟩
    · have split : source = _ := split
      rw [split, stops.tokenise] at scanned
      cases scanned
  · rintro ⟨inside, passed, rfl⟩
    exact passed.tokenise

theorem exists_tokenise_eq_error_iff {source : Text} {line : Nat} :
    (∃ error, tokenise source line = .error error) ↔
      ∃ before byte rest, source = before ++ byte :: rest ∧ StopsAt line before byte rest := by
  constructor
  · rintro ⟨error, failed⟩
    rcases (Passes.start source).ends_or_stops with ⟨inside, passed⟩ | stops
    · have passed : Passes line source inside [] := passed
      cases failed.symm.trans passed.tokenise
    · exact stops
  · rintro ⟨before, byte, rest, rfl, stops⟩
    exact ⟨_, stops.tokenise⟩

/-! ## Lexemes with spaces between them -/

/-- A text is cut into these lexemes, on every line. -/
def ReadsAs (source : Text) (lexemes : List (TokenKind × Text)) : Prop :=
  ∀ line, ∃ tokens, tokenise source line = .ok tokens ∧ tokens.map Token.lexeme = lexemes

/-- Lexemes with a space behind each of them are cut into the same lexemes. -/
theorem exists_scans_spaced {pieces : List Token}
    (lexemes : ∀ piece ∈ pieces, ∃ back, IsLexeme back piece.text piece.kind)
    (line column : Nat) (rest : Text) :
    ∃ tokens,
      Scans line column ((pieces.map Token.text).flatMap (· ++ (" " : Text))) tokens rest ∧
        tokens.map Token.lexeme = pieces.map Token.lexeme := by
  induction pieces generalizing column with
  | nil => exact ⟨[], .nil, rfl⟩
  | cons piece pieces induction =>
      rw [List.forall_mem_cons] at lexemes
      obtain ⟨⟨back, lexeme⟩, lexemes⟩ := lexemes
      obtain ⟨tokens, scans, same⟩ :=
        induction lexemes (column + (piece.text ++ (" " : Text)).length)
      have spaced : Scans line column (piece.text ++ (" " : Text)) _
          ((pieces.map Token.text).flatMap (· ++ (" " : Text)) ++ rest) :=
        (lexeme.apart (by rintro _ ⟨⟩; decide)).scans.append .space
      exact ⟨_, spaced.append scans, congrArg (piece.lexeme :: ·) same⟩

/-- Lexemes with single spaces between them are cut into the same lexemes, and so they are with a
space behind the last one. -/
theorem readsAs_join {inside : List Token} {last : Token} (ends : last.lexeme = (.endOfInput, []))
    (lexemes : ∀ token ∈ inside, ∃ back, IsLexeme back token.text token.kind) :
    ReadsAs (Text.join " " ((inside ++ [last]).map Token.text))
        ((inside ++ [last]).map Token.lexeme) ∧
      ReadsAs (Text.join " " (inside.map Token.text)) ((inside ++ [last]).map Token.lexeme) := by
  have read {source : Text} (reads : ∀ line, ∃ tokens, Scans line 1 source tokens [] ∧
      tokens.map Token.lexeme = inside.map Token.lexeme) :
      ReadsAs source ((inside ++ [last]).map Token.lexeme) := by
    intro line
    obtain ⟨tokens, scans, same⟩ := reads line
    rw [Scans, List.append_nil] at scans
    refine ⟨_, scans, ?_⟩
    rw [List.map_append, List.map_append, same, List.map_singleton, List.map_singleton, ends]
    rfl
  constructor
  · refine read fun line => ?_
    have empty : last.text = [] := congrArg Prod.snd ends
    rw [List.map_append, List.map_singleton, Text.join_concat, empty, List.append_nil]
    exact exists_scans_spaced lexemes line 1 []
  · refine read fun line => ?_
    rcases List.eq_nil_or_concat' inside with rfl | ⟨front, final, rfl⟩
    · exact ⟨[], .nil, rfl⟩
    · rw [List.forall_mem_append, List.forall_mem_singleton] at lexemes
      obtain ⟨lexemes, back, lexeme⟩ := lexemes
      rw [List.map_append, List.map_singleton, Text.join_concat]
      obtain ⟨tokens, scans, same⟩ := exists_scans_spaced lexemes line 1 (final.text ++ [])
      refine ⟨_, scans.append (lexeme.apart (by simp)).scans, ?_⟩
      rw [List.map_append, List.map_append, same]
      rfl

/-! ## Tokens of a source -/

/-- The tokens of a source are its longest lexemes from left to right and its end. -/
structure AreTokens (line : Nat) (source : Text) (tokens : List Token) : Prop where
  /-- The last token is the only end, and it has the column behind the source. -/
  ends : ∃ inside, tokens = inside ++ [⟨.endOfInput, [], ⟨line, source.length + 1⟩⟩] ∧
    ∀ token ∈ inside, token.kind ≠ .endOfInput ∧ token.StandsIn line source
  ordered : tokens.Pairwise Token.Precedes
  /-- Bytes outside the tokens are spaces. -/
  covers : ∀ place byte, source[place]? = some byte → Text.isSpace byte = true ∨
    ∃ token ∈ tokens, token.Covers (place + 1)
  column_lt : ∀ token ∈ tokens, token.position.column < UInt32.size
  rereads : ReadsAs (Text.join " " (tokens.map Token.text)) (tokens.map Token.lexeme)
  rereads_inside : ReadsAs (Text.join " " (tokens.dropLast.map Token.text))
    (tokens.map Token.lexeme)

theorem areTokens_of_tokenise {line : Nat} {source : Text} {tokens : List Token}
    (short : source.length + 1 < UInt32.size) (scanned : tokenise source line = .ok tokens) :
    AreTokens line source tokens := by
  obtain ⟨inside, passed, rfl⟩ := tokenise_eq_ok_iff.1 scanned
  have cut := passed.isCut
  have stands := cut.stands
  rw [List.append_nil] at stands
  have lexemes : ∀ token ∈ inside, ∃ back, IsLexeme back token.text token.kind := by
    intro token listed
    obtain ⟨front, back, -, -, lexeme, -⟩ := stands token listed
    exact ⟨back, lexeme⟩
  have ends : Token.lexeme ⟨.endOfInput, [], ⟨line, source.length + 1⟩⟩ = (.endOfInput, []) := rfl
  obtain ⟨rereads, rereads_inside⟩ := readsAs_join ends lexemes
  constructor
  case ends =>
    refine ⟨inside, rfl, fun token listed => ⟨?_, stands token listed⟩⟩
    obtain ⟨back, lexeme⟩ := lexemes token listed
    exact lexeme.kind_ne_endOfInput
  case ordered => exact cut.ordered_concat rfl
  case covers => exact fun place byte found => cut.covers_concat _ found
  case column_lt =>
    rw [List.forall_mem_append, List.forall_mem_singleton]
    refine ⟨fun token listed => Nat.lt_of_le_of_lt ?_ short, short⟩
    exact Nat.le_trans (Nat.le_add_right ..) (cut.stop_le token listed)
  case rereads => exact rereads
  case rereads_inside => rwa [List.dropLast_concat]

/-! ## Reports -/

theorem message_of_fault {fault : GuardFault} (solid : ∀ byte ∈ fault.text, byte ≠ 0)
    (position : Position) :
    (Error.guard position fault).message =
      Text.ofNat position.line ++ (": ERROR: " : Text) ++ fault.text ++ (" at column " : Text) ++
        Text.ofNat position.column := by
  rw [Error.message, List.takeWhile_eq_self_iff.2]
  · rfl
  · simp only [Error.text, List.forall_mem_append, bne_iff_ne]
    exact ⟨⟨⟨⟨fun byte => Text.ne_zero_of_mem_ofNat, by decide +kernel⟩, solid⟩,
      by decide +kernel⟩, fun byte => Text.ne_zero_of_mem_ofNat⟩

/-- What is reported of a byte that starts no lexeme. -/
theorem message_of_byte (line column : Nat) (byte : UInt8) :
    (Error.guard ⟨line, column⟩ (.byte byte)).message =
      Text.ofNat line ++ (": ERROR: unexpected character '" : Text) ++
        if byte = 0 then [] else [byte] ++ ("' at column " : Text) ++ Text.ofNat column := by
  by_cases zero : byte = 0
  · subst zero
    have text : (Error.guard ⟨line, column⟩ (.byte 0)).text =
        Text.ofNat line ++ (": ERROR: unexpected character '" : Text) ++
          0 :: (("' at column " : Text) ++ Text.ofNat column) := by
      simp only [Error.text, GuardFault.text, List.append_assoc]
      rfl
    have front : ∀ other ∈ Text.ofNat line ++ (": ERROR: unexpected character '" : Text),
        (other != 0) = true := by
      simp only [List.forall_mem_append, bne_iff_ne]
      exact ⟨fun other => Text.ne_zero_of_mem_ofNat, by decide +kernel⟩
    rw [Error.message, text, List.takeWhile_append_of_pos front]
    rfl
  · have solid : ∀ other ∈ (GuardFault.byte byte).text, other ≠ 0 := by
      simp only [GuardFault.text, List.forall_mem_append, List.forall_mem_singleton]
      exact ⟨⟨by decide +kernel, zero⟩, by decide +kernel⟩
    rw [message_of_fault solid, if_neg zero]
    simp only [GuardFault.text, List.append_assoc]
    rfl

private theorem eq_of_reported {line : Nat} {before before' rest rest' : Text} {byte byte' : UInt8}
    (reported : tokenise (before ++ byte :: rest) line =
      .error (.guard ⟨line, before.length + 1⟩ (.byte byte)))
    (split : before ++ byte :: rest = before' ++ byte' :: rest')
    (stops : StopsAt line before' byte' rest') :
    before' = before ∧ byte' = byte ∧ rest' = rest := by
  rw [split, stops.tokenise] at reported
  obtain ⟨same, rfl⟩ : before'.length = before.length ∧ byte' = byte := by simpa using reported
  obtain ⟨rfl, tail⟩ := List.append_inj split.symm same
  exact ⟨rfl, rfl, (List.cons.inj tail).2⟩

theorem stopsAt_iff {line : Nat} {before rest : Text} {byte : UInt8} :
    StopsAt line before byte rest ↔
      tokenise (before ++ byte :: rest) line =
        .error (.guard ⟨line, before.length + 1⟩ (.byte byte)) := by
  refine ⟨StopsAt.tokenise, fun reported => ?_⟩
  obtain ⟨before', byte', rest', split, stops⟩ := exists_tokenise_eq_error_iff.1 ⟨_, reported⟩
  obtain ⟨rfl, rfl, rfl⟩ := eq_of_reported reported split stops
  exact stops

/-- The scan of a source, whose columns fit into 32 bits, yields its tokens or stops. It stops at
one place at most, and what is reported has the column of this place unless the byte there is
zero. -/
theorem tokenise_takes_longest_lexemes {source : Text} (short : source.length + 1 < UInt32.size)
    (line : Nat) :
    (∀ tokens, tokenise source line = .ok tokens → AreTokens line source tokens) ∧
      ((∃ error, tokenise source line = .error error) ↔
        ∃ before byte rest, source = before ++ byte :: rest ∧ StopsAt line before byte rest) ∧
      ∀ before byte rest, source = before ++ byte :: rest → StopsAt line before byte rest →
        before.length + 1 < UInt32.size ∧
        (∀ before' byte' rest', source = before' ++ byte' :: rest' →
          StopsAt line before' byte' rest' → before' = before) ∧
        ∃ error, tokenise source line = .error error ∧ error.errorClass = .runtime ∧
          error.message = Text.ofNat line ++ (": ERROR: unexpected character '" : Text) ++
            if byte = 0 then [] else
              [byte] ++ ("' at column " : Text) ++ Text.ofNat (before.length + 1) := by
  refine ⟨fun tokens => areTokens_of_tokenise short, exists_tokenise_eq_error_iff, ?_⟩
  rintro before byte rest rfl stops
  refine ⟨?_, fun before' byte' rest' split stops' => ?_, _, stops.tokenise, rfl,
    message_of_byte line (before.length + 1) byte⟩
  · rw [List.length_append, List.length_cons] at short
    omega
  · exact (eq_of_reported stops.tokenise split stops').1

/-- The tokens of `p<->!q`, and the report of the byte in `p $ q` that starts no lexeme. -/
theorem tokenise_takes_longest_lexemes_equivalence :
    (∃ tokens, tokenise "p<->!q" = .ok tokens ∧ AreTokens 1 "p<->!q" tokens) ∧
      ∃ error, tokenise "p $ q" 4 = .error error ∧
        error.message = "4: ERROR: unexpected character '$' at column 3" := by
  have short : ("p<->!q" : Text).length + 1 < UInt32.size := by decide +kernel
  have short' : ("p $ q" : Text).length + 1 < UInt32.size := by decide +kernel
  obtain ⟨tokens, -, -⟩ := tokenise_takes_longest_lexemes short 1
  obtain ⟨-, -, reports⟩ := tokenise_takes_longest_lexemes short' 4
  refine ⟨⟨_, rfl, tokens _ rfl⟩, ?_⟩
  have stops : StopsAt 4 "p " 36 " q" := stopsAt_iff.2 rfl
  obtain ⟨-, -, error, failed, -, message⟩ := reports _ _ _ rfl stops
  exact ⟨error, failed, message⟩

/-- A zero byte in the fifth column of a source starts no lexeme, and the report does not have the
column. -/
theorem exists_report_without_column :
    StopsAt 1 "p & " 0 [] ∧ ∃ error, tokenise (("p & " : Text) ++ [0]) = .error error ∧
      ¬Text.ofNat 5 <:+: error.message := by
  refine ⟨stopsAt_iff.2 rfl, _, rfl, ?_⟩
  rw [message_of_byte]
  decide +kernel

end TransitionSystems.Guard
