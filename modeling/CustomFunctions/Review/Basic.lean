import CustomFunctions.Review.Rules
import CustomFunctions.Signature.Candidate

/-!
# Reviews

Candidates are reviewed in order. A candidate with an error is rejected, and warnings never reject.
Only an accepted candidate claims its id and its name.
-/

namespace CustomFunctions

/-- The verdict on a candidate. -/
inductive Verdict where
  | accepted
  | rejected
deriving DecidableEq, Inhabited

/-- A candidate with the verdict and all its diagnostics. -/
structure Review where
  signature : Signature
  verdict : Verdict
  diagnostics : List Diagnostic
deriving Inhabited

namespace Verdict

def name : Verdict → String
  | accepted => "accepted"
  | rejected => "rejected"

end Verdict

namespace Review

def isAccepted (r : Review) : Bool :=
  r.verdict = .accepted

/-- The error that reports a violation. -/
def error (f : Signature) (violation : Violation) : Diagnostic where
  severity := .error
  subject := .function
  subjectName := f.codeName
  message := violation.message
  line := f.line

/-- The review of a candidate after the functions that hold the given claims. -/
def ofCandidate (accepted : DuplicateTable) (candidate : Candidate) : Review :=
  let f := candidate.signature
  let diagnostics := candidate.diagnostics ++ (f.violations accepted).map (error f)
  { signature := f
    verdict := if diagnostics.any Diagnostic.isError then .rejected else .accepted
    diagnostics }

/-- What the reviewed function claims. -/
def claim (r : Review) : Claim :=
  ⟨r.signature.id, r.signature.name, r.signature.codeName⟩

/-- The claims after the review. -/
def claims (accepted : DuplicateTable) (r : Review) : DuplicateTable :=
  if r.isAccepted then accepted.record r.claim else accepted

/-- The reviews of candidates in order, each one after those before it. -/
def all (accepted : DuplicateTable) : List Candidate → List Review
  | [] => []
  | candidate :: rest =>
    let r := ofCandidate accepted candidate
    r :: all (r.claims accepted) rest

end Review

end CustomFunctions
