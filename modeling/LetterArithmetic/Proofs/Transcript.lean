import LetterArithmetic.CommandLine
import LetterArithmetic.Proofs.Sections
import LetterArithmetic.Proofs.Trimming

/-!
Sessions line by line. Main statement: a transcript is the banner, then for each line in front of the first that quits
the prompt and the answer which the line gets on its own, and at the end the prompt and one of two endings.
-/

set_option autoImplicit false

namespace LetterArithmetic

theorem scan_trim (s : String) : scan (String.ofList (Text.trim s.toList)) = scan s := by
  simp only [scan, Scanner.ofText, String.toList_ofList, Text.trim_trim]

theorem answer_trim (device : Device) (display : Display) (s : String) :
    answer device display (String.ofList (Text.trim s.toList)) = answer device display s := by
  simp only [answer, answerOn, scan_trim, String.toList_ofList, Text.trim_trim]

namespace CommandLine

def sessionArguments (d : Display) : List String :=
  "-i" :: (if d.tokens then ["--print-tokens"] else []) ++ (if d.outline then ["--print-ast"] else []) ++
    if d.grouping then ["--print-grouping"] else []

theorem command_sessionArguments (d : Display) :
    command (sessionArguments d) =
      .ok (.session { tokens := d.tokens, outline := d.outline, grouping := d.grouping }) := by
  obtain ⟨tokens, outline, grouping, json, picture, format⟩ := d
  cases tokens <;> cases outline <;> cases grouping <;> rfl

theorem outcome_session {device : Device} {d : Display} {args : List String}
    (h : command args = .ok (.session d)) (input : String) :
    outcome device args input = ⟨0, Session.transcript device d input, []⟩ := by
  rw [outcome, h]

end CommandLine

namespace Session

/-- A text in lines. Each ends at a line feed, but for the last one, which may also end with the text if it is not
empty. -/
inductive InLines : List Char → List String → Prop where
  | nil : InLines [] []
  | last {line : List Char} (hne : line ≠ []) (hline : '\n' ∉ line) : InLines line [String.ofList line]
  | cons {line rest : List Char} {ls : List String} (hline : '\n' ∉ line) (hrest : InLines rest ls) :
      InLines (line ++ '\n' :: rest) (String.ofList line :: ls)

theorem linesFrom_append {line : List Char} (hline : '\n' ∉ line) (done rest : List Char) :
    linesFrom done (line ++ rest) = linesFrom (line.reverse ++ done) rest := by
  induction line generalizing done with
  | nil => rfl
  | cons c line ih =>
    obtain ⟨hc, hline⟩ := not_or.mp (List.mem_cons.not.mp hline)
    rw [List.cons_append, linesFrom, ih hline, List.reverse_cons, List.append_assoc]
    · rfl
    · rintro rfl
      exact hc rfl

theorem InLines.linesFrom_eq {s : List Char} {ls : List String} (h : InLines s ls) : linesFrom [] s = ls := by
  induction h with
  | nil => rfl
  | @last line hne hline =>
    have happend := linesFrom_append hline [] []
    rw [List.append_nil, List.append_nil] at happend
    rw [happend, linesFrom, if_neg (by simpa using hne), List.reverse_reverse]
  | @cons line rest ls hline hrest ih =>
    rw [linesFrom_append hline, List.append_nil, linesFrom, ih, List.reverse_reverse]

theorem inLines_linesFrom (done s : List Char) (hdone : '\n' ∉ done) :
    InLines (done.reverse ++ s) (linesFrom done s) := by
  fun_induction linesFrom done s with
  | case1 => exact .nil
  | case2 done hne =>
    rw [List.append_nil]
    exact .last (by simpa using hne) (by simpa using hdone)
  | case3 done r ih => exact .cons (by simpa using hdone) (ih (by simp))
  | case4 done c r hc ih =>
    have hcons := ih (by simpa using ⟨fun h => hc h.symm, hdone⟩)
    rwa [List.reverse_cons, List.append_assoc] at hcons

theorem inLines_iff {input : String} {ls : List String} : InLines input.toList ls ↔ ls = lines input :=
  ⟨fun h => h.linesFrom_eq.symm, fun h => h ▸ inLines_linesFrom [] input.toList (by simp)⟩

def quits (line : String) : Bool :=
  ["quit", "exit", "q"].contains (Text.lowercase (String.ofList (Text.trim line.toList)))

/-- What follows the prompt for a line that does not quit: the answer that the line gets outside a session, unless it
is blank. -/
def shown (device : Device) (d : Display) (line : String) : String :=
  if Text.trim line.toList = [] then ""
  else (answer device { tokens := d.tokens, outline := d.outline, grouping := d.grouping } line).output

variable (device : Device) (d : Display)

theorem reply_eq (line : String) :
    reply device d line = if quits line then .last "Goodbye!\n" else .more (shown device d line) := by
  have hblank : String.ofList (Text.trim line.toList) = "" ↔ Text.trim line.toList = [] := String.ofList_eq_empty_iff
  have hanswer : answer device (display d) (String.ofList (Text.trim line.toList)) =
      answer device { tokens := d.tokens, outline := d.outline, grouping := d.grouping } line := answer_trim _ _ line
  simp only [reply, quits, shown, hblank, hanswer, apply_ite Reply.more]

theorem exchange_cons (line : String) (ls : List String) :
    exchange device d (line :: ls) =
      if quits line then prompt ++ "Goodbye!\n" else prompt ++ shown device d line ++ exchange device d ls := by
  rw [exchange.eq_def]
  simp only [reply_eq]
  cases quits line <;> rfl

theorem exchange_eq (ls : List String) :
    exchange device d ls =
      String.join ((ls.takeWhile fun l => !quits l).map fun l => prompt ++ shown device d l) ++ prompt ++
        (if ls.any quits then "Goodbye!\n" else ending) := by
  induction ls with
  | nil => rfl
  | cons l ls ih =>
    rw [exchange_cons]
    cases h : quits l with
    | true => simp [h]
    | false => simp [h, ih, String.append_assoc]

theorem banner_eq :
    banner =
      "\nInteractive Calculator Mode (type 'quit' to exit)\n  a = +   b = -   c = *   d = /   e = (   f = )\n" ++
        "================================================================================\n" := by
  decide +kernel

theorem transcript_eq_of_lines {input : String} {ls : List String} (h : InLines input.toList ls) :
    transcript device d input = banner ++ exchange device d ls := by
  rw [transcript, ← inLines_iff.mp h]

/-- A session shows its banner. For each line in front of the first that quits it shows the prompt, then nothing if the
line is blank, and else what the line on its own is answered. It ends with the prompt and a farewell, or with the
prompt and the ending if no line quits. What stands behind a line that quits is not read. However its lines are
answered, a session that the command line asks for comes to exit status 0, and each choice of sections can be asked
for. -/
theorem transcript_line_by_line (device : Device) (d : Display) (input : String) :
    ∃ ls, (∀ other, InLines input.toList other ↔ other = ls) ∧
      transcript device d input =
        "\nInteractive Calculator Mode (type 'quit' to exit)\n  a = +   b = -   c = *   d = /   e = (   f = )\n" ++
          "================================================================================\n" ++
          String.join ((ls.takeWhile fun l => !quits l).map fun l => "\nEnter expression: " ++ shown device d l) ++
          "\nEnter expression: " ++ (if ls.any quits then "Goodbye!\n" else "\n\nExiting...\n") ∧
      (∀ before last after input', ls = before ++ last :: after → quits last = true →
        InLines input'.toList (before ++ [last]) → transcript device d input' = transcript device d input) ∧
      (∀ args, CommandLine.command args = .ok (.session d) →
        CommandLine.outcome device args input = ⟨0, transcript device d input, []⟩) ∧
      CommandLine.outcome device (CommandLine.sessionArguments d) input = ⟨0, transcript device d input, []⟩ := by
  refine ⟨lines input, fun other => inLines_iff, ?_, ?_, fun args h => CommandLine.outcome_session h input, ?_⟩
  · rw [transcript, banner_eq, exchange_eq]
    simp only [String.append_assoc, prompt, ending]
  · intro before last after input' hls hquits hinput'
    have hinput : InLines input.toList (before ++ last :: after) := inLines_iff.mpr hls.symm
    rw [transcript_eq_of_lines device d hinput', transcript_eq_of_lines device d hinput, exchange_eq, exchange_eq]
    -- neither the lines in front of the first that quits nor whether there is one depends on those behind `last`
    have htake : (before ++ [last]).takeWhile (fun l => !quits l) =
        (before ++ last :: after).takeWhile (fun l => !quits l) := by
      rw [List.takeWhile_append, List.takeWhile_append]
      simp [hquits]
    have hany : (before ++ [last]).any quits = (before ++ last :: after).any quits := by simp [hquits]
    rw [htake, hany]
  · rw [CommandLine.outcome_session (CommandLine.command_sessionArguments d), transcript, transcript, exchange_eq,
      exchange_eq]
    rfl

theorem transcript_line_by_line_five :
    let input := "7\nk\n \n QUIT\n1"
    let device : Device := { render := fun _ => none }
    InLines input.toList ["7", "k", " ", " QUIT", "1"] ∧ quits " QUIT" = true ∧
      CommandLine.command ["-i"] = .ok (.session {}) ∧
      CommandLine.outcome device ["-i"] input =
        ⟨0, banner ++ ("\nEnter expression: Result: 7\n" ++
          "\nEnter expression: Tokenizer Error Unrecognized character: k\n" ++ "\nEnter expression: ") ++
          "\nEnter expression: " ++ "Goodbye!\n", []⟩ := by
  intro input device
  have hlines : lines "7\nk\n \n QUIT\n1" = ["7", "k", " ", " QUIT", "1"] := by decide
  have hargs : CommandLine.command ["-i"] = .ok (.session {}) := rfl
  obtain ⟨ls, hls, htranscript, -, houtcome, -⟩ := transcript_line_by_line device {} input
  obtain rfl := (hls _).mp (inLines_iff.mpr hlines.symm)
  have h7 : quits "7" = false := rfl
  have hk : quits "k" = false := rfl
  have hblank : quits " " = false := rfl
  have hquit : quits " QUIT" = true := rfl
  have hshown : ∀ l, Text.trim l.toList ≠ [] →
      shown device {} l = (Answer.ofValue .unlimited (calculate l)).output := by
    intro l hl
    rw [shown, if_neg hl]
    exact congrArg Answer.output (answer_plain device _ l)
  have hvalue : calculate "7" = .ok 7 := by
    have hscan : scan "7" = .ok [.number 7, .stop] := rfl
    have hread : Tree.ofTokens {} [.number 7, .stop] = .ok (.number 7) := rfl
    simp only [calculate, hscan, hread, Tree.evaluate_number]
    rfl
  have hfault : calculate "k" = .error (.scan (.unrecognized 'k')) := rfl
  have hshown7 : "\nEnter expression: " ++ shown device {} "7" = "\nEnter expression: Result: 7\n" := by
    simp only [hshown "7" (by decide), hvalue, Answer.ofValue_unlimited_ok]
    decide +kernel
  have hshownk : "\nEnter expression: " ++ shown device {} "k" =
      "\nEnter expression: Tokenizer Error Unrecognized character: k\n" := by
    simp only [hshown "k" (by decide), hfault, Answer.ofValue_unlimited_error]
    decide +kernel
  have htake : ["7", "k", " ", " QUIT", "1"].takeWhile (fun l => !quits l) = ["7", "k", " "] := by
    simp [h7, hk, hblank, hquit]
  have hany : ["7", "k", " ", " QUIT", "1"].any quits = true := by simp [hquit]
  have hmap : ["7", "k", " "].map (fun l => "\nEnter expression: " ++ shown device {} l) =
      ["\nEnter expression: Result: 7\n", "\nEnter expression: Tokenizer Error Unrecognized character: k\n",
        "\nEnter expression: "] := by
    simp only [List.map_cons, List.map_nil, hshown7, hshownk]
    rfl
  refine ⟨inLines_iff.mpr hlines.symm, hquit, hargs, ?_⟩
  rw [houtcome _ hargs, htranscript, htake, hany, hmap, banner_eq]
  rfl

end Session

end LetterArithmetic
