import TransitionSystems.CommandLine.Report
import TransitionSystems.Proofs.Text.Lines
import TransitionSystems.Text.Stream

/-!
# Ends of lines

A file may end each line with a newline or with a carriage return and a newline, and leave its last
line without an end. Taking the lines of such a file one after the other gives the lines that it was
made of, so a model does not depend on how its lines end.
-/

namespace TransitionSystems.Text

/-! ## Taking lines -/

namespace Stream

variable {line : Text}

theorem bne_newline_of_mem (whole : newline ∉ line) : ∀ byte ∈ line, (byte != newline) = true := by
  intro byte member
  rw [bne, beq_newline_of_mem whole byte member, Bool.not_false]

theorem takeLine_append (whole : newline ∉ line) (rest : Text) :
    takeLine { rest := line ++ newline :: rest } = (line, { rest }) := by
  have solid := bne_newline_of_mem whole
  simp [takeLine, List.dropWhile_append_of_pos solid, List.takeWhile_append_of_pos solid]

theorem takeLine_of_not_mem (whole : newline ∉ line) :
    takeLine { rest := line } = (line, { rest := [], atEnd := true, failed := line.isEmpty }) := by
  simp [takeLine, List.dropWhile_eq_nil_iff.2 (bne_newline_of_mem whole)]

theorem readLines_append (whole : newline ∉ line) (rest : Text) :
    readLines { rest := line ++ newline :: rest } = dropReturn line :: readLines { rest } := by
  rw [readLines, takeLine_append whole]
  rfl

theorem readLines_of_atEnd {stream : Stream} (atEnd : stream.atEnd = true) :
    stream.readLines = [] := by
  rw [readLines, takeLine, atEnd]
  rfl

theorem readLines_nil : readLines { rest := [] } = [] := by
  rw [readLines, takeLine_of_not_mem List.not_mem_nil]
  rfl

theorem readLines_of_not_mem (whole : newline ∉ line) (nonempty : line ≠ []) :
    readLines { rest := line } = [dropReturn line] := by
  rw [readLines, takeLine_of_not_mem whole, dif_pos (by simpa using nonempty),
    readLines_of_atEnd rfl]

/-- Taking the lines of a file one after the other gives the lines of the file. -/
theorem readLines_eq_lines (file : Text) : readLines { rest := file } = lines file := by
  by_cases more : newline ∈ file
  · obtain ⟨line, rest, rfl, whole⟩ := List.eq_append_cons_of_mem more
    rw [readLines_append whole, lines_append whole, readLines_eq_lines rest]
  · rcases eq_or_ne file [] with rfl | nonempty
    · rw [readLines_nil, lines_nil]
    · rw [readLines_of_not_mem more nonempty, lines_of_not_mem more nonempty]
termination_by file.length

end Stream

/-! ## Ending lines -/

/-- What a line may end with. -/
inductive LineEnd where
  | newline
  | returnNewline

/-- The bytes of an end of a line. -/
def LineEnd.bytes : LineEnd → Text
  | .newline => [Text.newline]
  | .returnNewline => [13, Text.newline]

/-- A file is made of texts by ending each of them in either way. The last text may be left without
an end unless it is empty. -/
inductive IsEnded : List Text → Text → Prop
  | nothing : IsEnded [] []
  | unended {text : Text} (nonempty : text ≠ []) : IsEnded [text] text
  | cons (text : Text) (ending : LineEnd) {texts : List Text} {rest : Text}
      (ended : IsEnded texts rest) : IsEnded (text :: texts) (text ++ ending.bytes ++ rest)

theorem lines_append_ending {text : Text} (whole : newline ∉ text)
    (noReturn : text.getLast? ≠ some 13) (ending : LineEnd) (rest : Text) :
    lines (text ++ ending.bytes ++ rest) = text :: lines rest := by
  cases ending with
  | newline =>
      rw [LineEnd.bytes, List.append_assoc, List.singleton_append, lines_append whole,
        dropReturn_eq_self noReturn]
  | returnNewline =>
      have whole' : newline ∉ text ++ [13] := by simpa [newline] using whole
      have split :
          text ++ LineEnd.returnNewline.bytes ++ rest = text ++ [13] ++ newline :: rest := by
        simp [LineEnd.bytes]
      rw [split, lines_append whole', dropReturn_concat]

/-- The lines of a file are the texts of which it is made. -/
theorem IsEnded.lines_eq {texts : List Text} {file : Text} (ended : IsEnded texts file)
    (whole : ∀ text ∈ texts, newline ∉ text)
    (noReturn : ∀ text ∈ texts, text.getLast? ≠ some 13) : lines file = texts := by
  induction ended with
  | nothing => exact lines_nil
  | unended nonempty =>
      rw [List.forall_mem_singleton] at whole noReturn
      rw [lines_of_not_mem whole nonempty, dropReturn_eq_self noReturn]
  | cons text ending _ induction =>
      rw [List.forall_mem_cons] at whole noReturn
      rw [lines_append_ending whole.1 noReturn.1, induction whole.2 noReturn.2]

/-- Texts without newlines and without carriage returns at their ends are found again in every file
that is made of them, whichever ends their lines have, and a model is read from this file as from
the texts themselves. -/
theorem IsEnded.readLines_and_load {texts : List Text} {file : Text} (ended : IsEnded texts file)
    (whole : ∀ text ∈ texts, newline ∉ text)
    (noReturn : ∀ text ∈ texts, text.getLast? ≠ some 13) :
    Stream.readLines { rest := file } = texts ∧ lines file = texts ∧
      ∀ (files : CommandLine.Files) (path : Text), files path = .ok file →
        CommandLine.load files path = Model.ofLines texts := by
  have found := ended.lines_eq whole noReturn
  refine ⟨(Stream.readLines_eq_lines file).trans found, found, fun files path content => ?_⟩
  rw [CommandLine.load, content, ← found]

/-- The lines of a model, with an empty one and one with a carriage return in its comment. -/
def signalLines : List Text :=
  ["system closed signal", "", "ap red # one\rtwo", "state off", "state on red"]

/-- A file of these lines with both ends and without an end of the last line. -/
def signalFile : Text :=
  "system closed signal\r\n\nap red # one\rtwo\r\nstate off\nstate on red"

/-- The model is read from this file as from its lines. -/
theorem signalFile_readLines_and_load :
    (Stream.readLines { rest := signalFile } = signalLines ∧ lines signalFile = signalLines ∧
        ∀ (files : CommandLine.Files) (path : Text), files path = .ok signalFile →
          CommandLine.load files path = Model.ofLines signalLines) ∧
      (Model.ofLines signalLines).isOk = true := by
  have ended : IsEnded signalLines signalFile :=
    .cons _ .returnNewline <| .cons _ .newline <| .cons _ .returnNewline <| .cons _ .newline <|
      .unended (by decide +kernel)
  exact ⟨ended.readLines_and_load (by decide +kernel) (by decide +kernel), by decide +kernel⟩

end TransitionSystems.Text
