import Stencil.Config
import Stencil.Report.Layout

/-!
Reports on config documents that cannot be loaded.
-/

namespace Stencil

/-- The label also says what could have stood in the place. -/
def Markup.SyntaxError.report (e : SyntaxError) : Report :=
  let expected :=
    match e.expected with
    | [] => ""
    | expected => "\nExpected: " ++ ", ".intercalate (expected.map Expected.describe)
  ⟨e.detail, e.detail ++ expected, e.span⟩

def Problem.report (p : Problem) : Report := ⟨p.message, p.message, p.span⟩

/-- The reports on everything that is wrong with a document. There are none if the place of one ends
before it starts, which happens where a document ends too early. -/
def Config.LoadError.render? (e : LoadError) (file source : String) : Option String :=
  match e with
  | .parse e => e.report.render? file source
  | .invalid problems =>
    (problems.mapM fun (p : Problem) => p.report.render? file source).map ("\n".intercalate ·)
  | .template e => some e.message

end Stencil
