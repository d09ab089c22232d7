import LineCalc.Program
import LineCalc.Proofs.Session.Cut
import LineCalc.Proofs.Text.Breaks
import LineCalc.Settings.Lenient

/-! What a program makes of a piped text hangs on the lines that are not blank alone. -/
namespace LineCalc.Program

theorem run_lines_rebroken {s t : String} (h : Text.Rebroken s t) (frames : Parser.Frames)
    (settings : Settings) (failed : Bool) :
    Session.run frames settings failed (Text.lines s) =
      Session.run frames settings failed (Text.lines t) := by
  rw [← Session.run_filter_blank, Text.filter_lines_rebroken h, Session.run_filter_blank]

theorem pipe_rebroken {s t : String} (h : Text.Rebroken s t) (frames : Parser.Frames)
    (settings : Settings) : pipe frames settings s = pipe frames settings t := by
  rw [pipe, pipe, run_lines_rebroken h]

/-- Whatever runs of breaks stand between the lines of a piped text and around it, a program prints
and logs the same, in the same order, and ends in the same way. -/
theorem run_rebroken (host : Host) (call : Call) {s t : String} (h : Text.Rebroken s t) :
    run host call (.piped s) = run host call (.piped t) := by
  rw [run, run]
  cases call.settings host with
  | error refusal => rfl
  | ok settings => simp only [runWith, pipe_rebroken h]

theorem run_rebroken_sum :
    Text.Rebroken "1+1\r\n2" "\n1+1\n\r2" ∧
      Text.lines "1+1\r\n2" = ["1+1", "2"] ∧ Text.lines "\n1+1\n\r2" = ["", "1+1", "", "2"] ∧
        run ⟨.only "/root", .lenient, .atMost 20⟩ ⟨fun _ => none, ["--show-tree"]⟩
            (.piped "1+1\r\n2") =
          run ⟨.only "/root", .lenient, .atMost 20⟩ ⟨fun _ => none, ["--show-tree"]⟩
            (.piped "\n1+1\n\r2") := by
  have breaks {cs : List Char} (all : cs.all Text.isBreak) : ∀ c ∈ cs, Text.isBreak c :=
    List.all_eq_true.1 all
  have turned : Text.Rebreak "1+1\r\n2".toList "1+1\n\r2".toList :=
    @Text.Rebreak.exchange ['1', '+', '1'] ['\r', '\n'] ['\n', '\r'] ['2'] (breaks (by decide))
      (breaks (by decide)) (by simp)
  have begun : Text.Rebreak "1+1\n\r2".toList "\n1+1\n\r2".toList :=
    @Text.Rebreak.exchange [] [] ['\n'] "1+1\n\r2".toList (breaks (by decide))
      (breaks (by decide)) (by simp)
  have changed : Text.Rebroken "1+1\r\n2" "\n1+1\n\r2" := .tail (.single turned) begun
  exact ⟨changed, by decide, by decide, run_rebroken _ _ changed⟩

end LineCalc.Program
