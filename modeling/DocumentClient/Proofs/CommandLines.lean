import DocumentClient.Proofs.ScriptLines

/-!
# One line for each command

`Command.onOneLine` puts spaces for line breaks in two passes, first for the pairs of a carriage
return and a line feed, then for those that stand alone. `onOneLine_eq_spaceBreaks` says that this
is one pass from left to right. Nothing in its result is a line break, so a script is read back line
by line, and two lists of commands give the same script exactly if their commands are the same, one
by one, once they are on one line each (`ScriptFrame.lines_script`).
-/

namespace DocumentClient

/-- The text with a space for every line break, in one pass from left to right. A line break is a
carriage return with the line feed right after it, or either of them alone. -/
def Text.spaceBreaks : List Char → List Char
  | [] => []
  | '\r' :: '\n' :: rest => ' ' :: spaceBreaks rest
  | '\r' :: rest => ' ' :: spaceBreaks rest
  | '\n' :: rest => ' ' :: spaceBreaks rest
  | c :: rest => c :: spaceBreaks rest

namespace Command

/-- Replacing pairs first and single breaks afterwards is one pass over the text. -/
theorem onOneLine_eq_spaceBreaks (text : List Char) : onOneLine text = Text.spaceBreaks text := by
  fun_induction Text.spaceBreaks text with
  | case1 => rfl
  | case2 rest ih => rw [onOneLine_pair, ih]
  | case3 rest hpair ih =>
      rw [onOneLine_cons fun tail _ hrest => hpair tail hrest, ih]
      rfl
  | case4 rest ih =>
      rw [onOneLine_cons fun _ hreturn => absurd hreturn (by decide), ih]
      rfl
  | case5 c rest hpair hreturn hfeed ih =>
      have hbreak : ¬ (c = '\n' ∨ c = '\r') := by
        intro hc
        rcases hc with hc | hc
        · exact hfeed hc
        · exact hreturn hc
      rw [onOneLine_cons hpair, if_neg hbreak, ih]

/-- As lists of characters, normalizing puts a command on one line. -/
theorem toList_normalized (command : String) :
    (normalized command).toList = onOneLine command.toList := by
  rw [normalized, String.toList_ofList]

/-- A command that is on one line stays as it is. -/
theorem normalized_normalized (command : String) :
    normalized (normalized command) = normalized command := by
  have hline := onOneLine_of_unbroken (unbroken_onOneLine command.toList)
  rw [normalized, toList_normalized, hline, normalized]

end Command

namespace ScriptFrame

/-- A script depends on its commands only as far as they are written on one line. -/
theorem script_congr (frame : ScriptFrame) {commands others : List String}
    (h : commands.map Command.normalized = others.map Command.normalized) :
    frame.script commands = frame.script others := by
  have hbody : ∀ commands : List String,
      commands.flatMap (fun command => line (Command.onOneLine command.toList)) =
        (commands.map Command.normalized).flatMap fun command => line command.toList := by
    intro commands
    rw [List.flatMap_map]
    simp only [Command.toList_normalized]
  rw [script, script, build, build, hbody, hbody, h]

/-- The script of some commands is the begin marker, each command on a line of its own, and the
commit marker. The line of a command is made in one pass that puts a space for each line break.
Two lists of commands have the same script exactly if they have the same lines. -/
theorem lines_script (frame : ScriptFrame) (hbegin : Text.Unbroken frame.beginMarker.toList)
    (hcommit : Text.Unbroken frame.commitMarker.toList) :
    (∀ commands, (Text.lines (frame.script commands).toList).map String.ofList =
      frame.beginMarker :: commands.map Command.normalized ++ [frame.commitMarker]) ∧
    (∀ command, (Command.normalized command).toList = Text.spaceBreaks command.toList ∧
      Text.Unbroken (Command.normalized command).toList ∧
      Command.normalized (Command.normalized command) = Command.normalized command) ∧
    (∀ commands others, frame.script commands = frame.script others ↔
      commands.map Command.normalized = others.map Command.normalized) := by
  have hlines : ∀ commands, (Text.lines (frame.script commands).toList).map String.ofList =
      frame.beginMarker :: commands.map Command.normalized ++ [frame.commitMarker] := by
    intro commands
    have hbuild := frame.lines_build hbegin hcommit commands
    rw [script, String.toList_ofList, hbuild, List.map_append, List.map_cons, List.map_map,
      List.map_singleton, String.ofList_toList, String.ofList_toList]
    rfl
  refine ⟨hlines, ?_, ?_⟩
  · intro command
    rw [Command.toList_normalized]
    exact ⟨Command.onOneLine_eq_spaceBreaks _, Command.unbroken_onOneLine _,
      Command.normalized_normalized command⟩
  · intro commands others
    constructor
    · intro hsame
      have hboth := hlines others
      rw [← hsame, hlines commands] at hboth
      obtain ⟨hbody, -⟩ := List.append_inj' (List.cons.inj hboth).2 rfl
      exact hbody
    · intro hsame
      exact frame.script_congr hsame

/-- Breaks of all kinds within commands, and a command that is empty, between markers of one's
own. -/
theorem lines_retryingScript :
    let frame : ScriptFrame := ⟨"begin;", "commit retry 3;"⟩
    let commands := ["a\r\r\nb\n\rc", "", "\r"]
    Text.Unbroken frame.beginMarker.toList ∧ Text.Unbroken frame.commitMarker.toList ∧
      (Text.lines (frame.script commands).toList).map String.ofList =
        ["begin;", "a  b  c", "", " ", "commit retry 3;"] ∧
      frame.script commands = frame.script ["a \nb  c", "", " "] := by
  intro frame commands
  have hbegin : Text.Unbroken frame.beginMarker.toList := by decide
  have hcommit : Text.Unbroken frame.commitMarker.toList := by decide
  obtain ⟨hlines, -, hsame⟩ := frame.lines_script hbegin hcommit
  refine ⟨hbegin, hcommit, ?_, ?_⟩
  · rw [hlines]
    decide
  · rw [hsame]
    decide

end ScriptFrame

end DocumentClient
