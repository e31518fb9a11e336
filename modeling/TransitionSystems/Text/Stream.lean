import TransitionSystems.Text.Lines

/-!
# Reading a file line by line

A stream hands out the lines of a file one after the other. Where the bytes run out in the middle of
a line, the end is noted but the line counts. Asking for a line when there is nothing left is a
failure, and so is asking again after the end.
-/

namespace TransitionSystems.Text

/-- A file being read: the bytes still to come, whether the end has been met, and whether asking for
a line has failed. -/
structure Stream where
  rest : Text
  atEnd : Bool := false
  failed : Bool := false

namespace Stream

/-- The bytes up to the next newline, and the stream after this newline. -/
def takeLine (stream : Stream) : Text × Stream :=
  if stream.atEnd || stream.failed then
    ([], { stream with failed := true })
  else
    match stream.rest.dropWhile (· != newline) with
    | [] => (stream.rest, { rest := [], atEnd := true, failed := stream.rest.isEmpty })
    | _ :: rest => (stream.rest.takeWhile (· != newline), { stream with rest })

/-- The bytes of a line that has been taken are no longer to come. -/
theorem length_rest_takeLine_lt {stream : Stream} (taken : stream.takeLine.2.failed = false) :
    stream.takeLine.2.rest.length < stream.rest.length := by
  rw [takeLine] at taken ⊢
  split
  · next exhausted => simp [exhausted] at taken
  · next left =>
      rw [if_neg left] at taken
      split
      · next nothing => simpa [nothing, List.length_pos_iff] using taken
      · next found =>
          have shorter := (List.dropWhile_suffix (l := stream.rest) (· != newline)).length_le
          rw [found] at shorter
          exact shorter

/-- Takes lines as long as this does not fail; each is kept without the carriage return at its
end. -/
def readLines (stream : Stream) : List Text :=
  if _ : stream.takeLine.2.failed = false then
    dropReturn stream.takeLine.1 :: stream.takeLine.2.readLines
  else
    []
termination_by stream.rest.length
decreasing_by exact length_rest_takeLine_lt ‹_›

end Stream

end TransitionSystems.Text
