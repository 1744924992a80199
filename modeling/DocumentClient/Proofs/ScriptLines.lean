import DocumentClient.Command.Script
import DocumentClient.Memory.Engine
import DocumentClient.Proofs.Trimming

/-!
# Scripts read back line by line

A script is written by `ScriptFrame.build` and read by `Memory.scriptLines`. `scriptLines_build`
says that the engine reads exactly the begin marker, one line for each command, and the commit
marker. Whether such a line is taken for a marker can be seen from the command itself, because
line breaks and outer blanks make no difference to it (`isMarker_asRead`).
-/

namespace DocumentClient

namespace Text

/-- The text has no line break. -/
def Unbroken (text : List Char) : Prop :=
  ∀ c ∈ text, c ≠ '\n' ∧ c ≠ '\r'

instance (text : List Char) : Decidable (Unbroken text) :=
  List.decidableBAll (fun c => c ≠ '\n' ∧ c ≠ '\r') text

/-- An unbroken line is cut off as it was written. -/
theorem lines_line {text : List Char} (h : Unbroken text) (rest : List Char) :
    lines (ScriptFrame.line text ++ rest) = text :: lines rest := by
  induction text with
  | nil => rfl
  | cons c text ih =>
      obtain ⟨hc, htext⟩ := List.forall_mem_cons.mp h
      have htail : lines (text ++ '\n' :: rest) = text :: lines rest := by
        simpa [ScriptFrame.line] using ih htext
      simp [ScriptFrame.line, lines, htail, hc]

/-- A letter is blank in neither case. -/
theorem isBlank_lowerAscii (c : Char) : isBlank (lowerAscii c) = isBlank c := by
  unfold lowerAscii
  split
  · next h =>
      have hlow : 65 ≤ c.toNat := h.1
      have hhigh : c.toNat ≤ 90 := h.2
      have hvalid : (c.toNat + 32).isValidChar := .inl (by omega)
      have hpoint : (Char.ofNat (c.toNat + 32)).toNat = c.toNat + 32 := by
        rw [Char.ofNat, dif_pos hvalid]
        rfl
      rw [Bool.eq_iff_iff]
      simp only [isBlank, hpoint, Bool.or_eq_true, Bool.and_eq_true, decide_eq_true_eq, beq_iff_eq]
      omega
  · rfl

end Text

namespace Command

open Text

/-- A carriage return and its line feed become one space. -/
theorem onOneLine_pair (rest : List Char) :
    onOneLine ('\r' :: '\n' :: rest) = ' ' :: onOneLine rest := by
  simp [onOneLine, replacePairs]

/-- A character that begins no such pair becomes a space if it is a break, and stays otherwise. -/
theorem onOneLine_cons {c : Char} {rest : List Char}
    (h : ∀ tail, c = '\r' → rest ≠ '\n' :: tail) :
    onOneLine (c :: rest) = (if c = '\n' ∨ c = '\r' then ' ' else c) :: onOneLine rest := by
  unfold onOneLine
  rw [replacePairs, List.map_cons]
  exact h

/-- A text whose breaks are replaced has none. -/
theorem unbroken_onOneLine (text : List Char) : Unbroken (onOneLine text) := by
  intro c hc
  obtain ⟨b, -, rfl⟩ := List.mem_map.mp hc
  split
  · decide
  · next h => exact not_or.mp h

/-- Only the empty text becomes empty. -/
theorem onOneLine_eq_nil_iff (text : List Char) : onOneLine text = [] ↔ text = [] := by
  fun_cases replacePairs text <;> simp [onOneLine, replacePairs, *]

/-- A text without breaks stays as it is. -/
theorem onOneLine_of_unbroken {text : List Char} (h : Unbroken text) : onOneLine text = text := by
  induction text with
  | nil => rfl
  | cons c text ih =>
      obtain ⟨hc, htext⟩ := List.forall_mem_cons.mp h
      rw [onOneLine_cons (fun _ hr => absurd hr hc.2), if_neg (not_or.mpr hc), ih htext]

/-- A break and the space in its place are both blank. -/
theorem isBlank_unbreak (c : Char) :
    isBlank (if c = '\n' ∨ c = '\r' then ' ' else c) = isBlank c := by
  split
  · next h => rcases h with rfl | rfl <;> decide
  · rfl

/-- Trimming the start commutes with replacing breaks, as every break is blank. -/
theorem trimStart_onOneLine (text : List Char) :
    trimStart (onOneLine text) = onOneLine (trimStart text) := by
  fun_induction replacePairs text with
  | case1 => rfl
  | case2 rest ih =>
      have hcr : isBlank '\r' = true := by decide
      have hlf : isBlank '\n' = true := by decide
      have hsp : isBlank ' ' = true := by decide
      simp only [onOneLine_pair, trimStart_cons, hcr, hlf, hsp, if_true, ih]
  | case3 c rest hpair ih =>
      have hcons := onOneLine_cons (fun tail hc hrest => hpair tail hc hrest)
      rw [hcons, trimStart_cons, trimStart_cons, isBlank_unbreak]
      split
      · exact ih
      · exact hcons.symm

/-- Trimming the end commutes with replacing breaks, by the same argument on the reverse. -/
theorem trimEnd_onOneLine (text : List Char) :
    trimEnd (onOneLine text) = onOneLine (trimEnd text) := by
  fun_induction replacePairs text with
  | case1 => rfl
  | case2 rest ih =>
      have hcr : isBlank '\r' = true := by decide
      have hlf : isBlank '\n' = true := by decide
      have hsp : isBlank ' ' = true := by decide
      simp only [onOneLine_pair, trimEnd_cons, hcr, hlf, hsp, and_true, ih, onOneLine_eq_nil_iff]
      by_cases hrest : trimEnd rest = []
      · simp [hrest, onOneLine, replacePairs]
      · simp [hrest, onOneLine_pair]
  | case3 c rest hpair ih =>
      -- Trimming cannot bring a line feed to the front that was not there.
      have hkept : ∀ tail, c = '\r' → trimEnd rest ≠ '\n' :: tail := by
        intro tail hc htrim
        cases rest with
        | nil => simp [trimEnd] at htrim
        | cons d rest =>
            rw [trimEnd_cons] at htrim
            split at htrim
            · simp at htrim
            · obtain ⟨rfl, -⟩ := List.cons.inj htrim
              exact hpair rest hc rfl
      have hcons := onOneLine_cons (fun tail hc hrest => hpair tail hc hrest)
      rw [hcons, trimEnd_cons, trimEnd_cons, isBlank_unbreak, ih]
      simp only [onOneLine_eq_nil_iff]
      split
      · rfl
      · exact (onOneLine_cons hkept).symm

/-- Trimming a command and writing it on one line can be done in either order. -/
theorem trim_onOneLine (text : List Char) : trim (onOneLine text) = onOneLine (trim text) := by
  rw [trim, trimStart_onOneLine, trimEnd_onOneLine, trim]

/-- Writing on one line neither adds the first blank nor takes the last one away. -/
theorem any_isBlank_onOneLine (text : List Char) :
    (onOneLine text).any isBlank = text.any isBlank := by
  fun_induction replacePairs text with
  | case1 => rfl
  | case2 rest ih =>
      have hcr : isBlank '\r' = true := by decide
      have hsp : isBlank ' ' = true := by decide
      simp only [onOneLine_pair, List.any_cons, hcr, hsp, Bool.true_or]
  | case3 c rest hpair ih =>
      rw [onOneLine_cons (fun tail hc hrest => hpair tail hc hrest), List.any_cons, List.any_cons,
        isBlank_unbreak, ih]

/-- A text without blanks has no breaks to replace. -/
theorem onOneLine_of_not_blank {text : List Char} (h : text.any isBlank = false) :
    onOneLine text = text := by
  apply onOneLine_of_unbroken
  intro c hc
  have hblank := List.any_eq_false.mp h c hc
  constructor <;> rintro rfl <;> exact hblank (by decide)

end Command

namespace Memory.Progress

/-- A line that is a word without blanks has no blank. -/
theorem not_blank_of_isMarker {word : String} {line : List Char}
    (hword : word.toList.any Text.isBlank = false) (h : isMarker word line = true) :
    line.any Text.isBlank = false := by
  have hlower := congrArg (List.any · Text.isBlank) (eq_of_beq h)
  simpa only [String.toList_ofList, List.any_map, Function.comp_def, Text.isBlank_lowerAscii,
    hword] using hlower

/-- A line is a marker whether its breaks are replaced or not. -/
theorem isMarker_onOneLine {word : String} (hword : word.toList.any Text.isBlank = false)
    (line : List Char) : isMarker word (Command.onOneLine line) = isMarker word line := by
  rw [Bool.eq_iff_iff]
  constructor
  · intro h
    have hblank := not_blank_of_isMarker hword h
    rw [Command.any_isBlank_onOneLine] at hblank
    rwa [Command.onOneLine_of_not_blank hblank] at h
  · intro h
    rwa [Command.onOneLine_of_not_blank (not_blank_of_isMarker hword h)]

end Memory.Progress

/-! ## Whole scripts -/

/-- The line that an engine reads for a command of a script. -/
def Command.asRead (command : String) : List Char :=
  Text.trim (Command.onOneLine command.toList)

/-- Whether a command, but for blanks around it and ASCII case, is a word that frames scripts. -/
def Command.isFraming (command : String) : Bool :=
  Memory.Progress.isMarker "BEGIN" (Text.trim command.toList) ||
    Memory.Progress.isMarker "COMMIT" (Text.trim command.toList)

/-- A command is taken for a marker in a script exactly if it is one on its own. -/
theorem Memory.Progress.isMarker_asRead {word : String}
    (hword : word.toList.any Text.isBlank = false) (command : String) :
    isMarker word (Command.asRead command) = isMarker word (Text.trim command.toList) := by
  rw [Command.asRead, Command.trim_onOneLine, isMarker_onOneLine hword]

/-- A command that is not blank leaves text on its line. -/
theorem Command.asRead_ne_nil {command : String} (h : Text.isBlankText command = false) :
    Command.asRead command ≠ [] := by
  rw [Command.asRead, Command.trim_onOneLine]
  intro hnil
  have hblank := (Text.isBlankText_iff command).mpr ((Command.onOneLine_eq_nil_iff _).mp hnil)
  rw [h] at hblank
  exact Bool.false_ne_true hblank

/-- The lines of the script of some commands, if the markers are single lines. -/
theorem ScriptFrame.lines_build (frame : ScriptFrame)
    (hbegin : Text.Unbroken frame.beginMarker.toList)
    (hcommit : Text.Unbroken frame.commitMarker.toList) (commands : List String) :
    Text.lines (frame.build commands) =
      frame.beginMarker.toList ::
        (commands.map fun command => Command.onOneLine command.toList) ++
        [frame.commitMarker.toList] := by
  have hbody : Text.lines
      (commands.flatMap (fun command => line (Command.onOneLine command.toList)) ++
        line frame.commitMarker.toList) =
      (commands.map fun command => Command.onOneLine command.toList) ++
        [frame.commitMarker.toList] := by
    induction commands with
    | nil => simpa [Text.lines] using Text.lines_line hcommit []
    | cons command commands ih =>
        rw [List.flatMap_cons, List.append_assoc,
          Text.lines_line (Command.unbroken_onOneLine _), ih, List.map_cons, List.cons_append]
  rw [build, List.append_assoc, Text.lines_line hbegin, hbody, List.cons_append]

namespace Memory

/-- An engine reads the script of commands that are not blank as the begin marker, one line for
each command, and the commit marker. -/
theorem scriptLines_build {commands : List String}
    (h : ∀ command ∈ commands, Text.isBlankText command = false) :
    scriptLines ((ScriptFrame.ofSettings {}).build commands) =
      "BEGIN".toList :: commands.map Command.asRead ++ ["COMMIT".toList] := by
  -- No line of a command is blank, so none is left out.
  have hbody : (commands.map Command.asRead).filter (fun line => !line.isEmpty) =
      commands.map Command.asRead := by
    rw [List.filter_eq_self]
    intro line hline
    obtain ⟨command, hcommand, rfl⟩ := List.mem_map.mp hline
    simpa using Command.asRead_ne_nil (h command hcommand)
  have hlines := ScriptFrame.lines_build (.ofSettings {}) (by decide) (by decide) commands
  have hbegin : Text.trim "BEGIN".toList = "BEGIN".toList := by decide
  have hcommit : Text.trim "COMMIT".toList = "COMMIT".toList := by decide
  have hmap : (commands.map fun command => Command.onOneLine command.toList).map Text.trim =
      commands.map Command.asRead := List.map_map ..
  rw [scriptLines, hlines, List.map_append, List.map_cons, hmap, List.map_singleton]
  simp only [ScriptFrame.ofSettings, hbegin, hcommit]
  rw [List.filter_append, List.filter_cons_of_pos (by decide), hbody]
  rfl

/-- The lines are one unit: the only begin marker is the first of them, and the only commit
marker the last. -/
structure Framed (lines : List (List Char)) : Prop where
  begins_once : lines.countP (Progress.isMarker "BEGIN") = 1
  begins_first : lines.head?.any (Progress.isMarker "BEGIN") = true
  commits_once : lines.countP (Progress.isMarker "COMMIT") = 1
  commits_last : lines.getLast?.any (Progress.isMarker "COMMIT") = true

/-- Lines between the two markers are one unit exactly if none of them is a marker. -/
theorem framed_iff (body : List (List Char)) :
    Framed ("BEGIN".toList :: body ++ ["COMMIT".toList]) ↔
      ∀ line ∈ body, Progress.isMarker "BEGIN" line = false ∧
        Progress.isMarker "COMMIT" line = false := by
  have hbegins : ("BEGIN".toList :: body ++ ["COMMIT".toList]).countP
      (Progress.isMarker "BEGIN") = body.countP (Progress.isMarker "BEGIN") + 1 := by
    rw [List.countP_append, List.countP_cons_of_pos (by decide)]
    rfl
  have hcommits : ("BEGIN".toList :: body ++ ["COMMIT".toList]).countP
      (Progress.isMarker "COMMIT") = body.countP (Progress.isMarker "COMMIT") + 1 := by
    rw [List.countP_append, List.countP_cons_of_neg (by decide)]
    rfl
  constructor
  · rintro ⟨hbegin, -, hcommit, -⟩ line hline
    rw [hbegins, Nat.add_eq_right] at hbegin
    rw [hcommits, Nat.add_eq_right] at hcommit
    exact ⟨Bool.eq_false_iff.mpr (List.countP_eq_zero.mp hbegin line hline),
      Bool.eq_false_iff.mpr (List.countP_eq_zero.mp hcommit line hline)⟩
  · intro h
    have hfirst : Progress.isMarker "BEGIN" "BEGIN".toList = true := by decide
    refine ⟨?_, hfirst, ?_, ?_⟩
    · rw [hbegins, Nat.add_eq_right, List.countP_eq_zero]
      exact fun line hline => Bool.eq_false_iff.mp (h line hline).1
    · rw [hcommits, Nat.add_eq_right, List.countP_eq_zero]
      exact fun line hline => Bool.eq_false_iff.mp (h line hline).2
    · rw [List.getLast?_concat]
      decide

/-- The script of commands that are not blank is one unit exactly if none of them is a word that
frames scripts. -/
theorem framed_build_iff {commands : List String}
    (h : ∀ command ∈ commands, Text.isBlankText command = false) :
    Framed (scriptLines ((ScriptFrame.ofSettings {}).build commands)) ↔
      ∀ command ∈ commands, Command.isFraming command = false := by
  rw [scriptLines_build h, framed_iff, List.forall_mem_map]
  refine forall₂_congr fun command _ => ?_
  rw [Progress.isMarker_asRead (by decide), Progress.isMarker_asRead (by decide),
    Command.isFraming, Bool.or_eq_false_iff]

end Memory

end DocumentClient
