import Mathlib
import ReleaseBuild.Failure
/-!
# How collected problems are shown

Validation collects its problems in the order it detects them, one at a time (`push`) or
several at once (`extend`). An operator sees them sorted by their characters, in two
renderings: the error's own text puts a line break and ` * ` before each problem, and its
diagnostic puts ` * ` before each problem and a line break after it. Moving the final line
break to the front turns one into the other (`join_lead_eq_join_trail`), so the diagnostic is
the error's text on an `error: ` line, followed by the advice to turn signing off when some
problem asks for a certificate.

Sorting is what makes the report independent of the detection order: the sorted list is the
one sorted permutation of the problems (`sorted_eq_of_perm`), so permuted problems read the
same in the text and in the diagnostic, with colour or without.
-/

set_option autoImplicit false

namespace ReleaseBuild

namespace Text

/-- A text occurs in another exactly when its characters are a run of the other's. -/
theorem contains_iff_infix (hay needle : String) :
    contains hay needle = true ↔ needle.toList <:+: hay.toList := by
  unfold contains
  generalize hay.toList = cs
  induction cs with
  | nil => simp [occursIn, List.isEmpty_iff]
  | cons c cs ih => simp [occursIn, List.infix_cons_iff, ih]

end Text

namespace ValidationError

/-! ## Building the error -/

/-- One call that adds problems: `push` adds one, `extend` several in order. -/
inductive Addition where
  | push (problem : String)
  | extend (problems : List String)

/-- The problems a call adds, in order. -/
def Addition.added : Addition → List String
  | .push p => [p]
  | .extend ps => ps

/-- Make one call. -/
def add (e : ValidationError) : Addition → ValidationError
  | .push p => e.push p
  | .extend ps => e.extend ps

/-- The error a sequence of calls builds from the empty one. -/
def build (calls : List Addition) : ValidationError := calls.foldl add {}

theorem problems_add (e : ValidationError) (a : Addition) :
    (e.add a).problems = e.problems ++ a.added := by
  cases a <;> rfl

/-- Each call appends its problems behind those already there. -/
theorem problems_foldl_add (e : ValidationError) (calls : List Addition) :
    (calls.foldl add e).problems = e.problems ++ calls.flatMap Addition.added := by
  induction calls generalizing e with
  | nil => simp
  | cons a calls ih => simp [ih, problems_add, List.append_assoc]

theorem problems_build (calls : List Addition) :
    (build calls).problems = calls.flatMap Addition.added := by
  simp [build, problems_foldl_add]

/-! ## Sorting -/

theorem sorted_perm (e : ValidationError) : e.sorted.Perm e.problems :=
  List.mergeSort_perm _ _

theorem sorted_pairwise (e : ValidationError) : e.sorted.Pairwise (· ≤ ·) := by
  refine (List.pairwise_mergeSort ?_ ?_ e.problems).imp ?_
  · intro a b c hab hbc
    simp only [decide_eq_true_eq] at hab hbc ⊢
    exact le_trans hab hbc
  · intro a b
    simpa using le_total a b
  · intro a b hab
    simpa using hab

/-- The sorted problems depend only on which problems there are, not on their order. -/
theorem sorted_eq_of_perm {e e' : ValidationError} (h : e.problems.Perm e'.problems) :
    e.sorted = e'.sorted :=
  List.Perm.eq_of_pairwise' (sorted_pairwise e) (sorted_pairwise e')
    ((sorted_perm e).trans (h.trans (sorted_perm e').symm))

theorem mentions_iff (e : ValidationError) (needle : String) :
    e.mentions needle = true ↔ ∃ p ∈ e.problems, needle.toList <:+: p.toList := by
  simp [mentions, Text.contains_iff_infix]

theorem mentions_eq_of_perm {e e' : ValidationError} (h : e.problems.Perm e'.problems)
    (needle : String) : e.mentions needle = e'.mentions needle := by
  rw [Bool.eq_iff_iff, mentions_iff, mentions_iff]
  simp only [h.mem_iff]

theorem message_eq_of_perm {e e' : ValidationError} (h : e.problems.Perm e'.problems) :
    e.message = e'.message := by
  rw [message, message, sorted_eq_of_perm h]

/-! ## The two renderings -/

/-- Lines written with their break first read the same as lines written with their break
last, once the break that ends the text is moved to its front. -/
theorem join_lead_eq_join_trail (head : String) (items : List String) :
    head ++ String.join (items.map ("\n * " ++ ·)) ++ "\n" =
      head ++ "\n" ++ String.join (items.map fun c => " * " ++ c ++ "\n") := by
  induction items generalizing head with
  | nil => simp
  | cons p ps ih =>
    have hsep : ("\n * " : String) = "\n" ++ " * " := by simp
    -- the first problem joins the head on both sides
    calc head ++ String.join ((p :: ps).map ("\n * " ++ ·)) ++ "\n"
        = (head ++ "\n * " ++ p) ++ String.join (ps.map ("\n * " ++ ·)) ++ "\n" := by
          simp [String.join_cons, String.append_assoc]
      _ = (head ++ "\n * " ++ p) ++ "\n" ++ String.join (ps.map fun c => " * " ++ c ++ "\n") :=
          ih _
      _ = head ++ "\n" ++ String.join ((p :: ps).map fun c => " * " ++ c ++ "\n") := by
          simp only [List.map_cons, String.join_cons, String.append_assoc]
          rw [hsep, String.append_assoc]

end ValidationError

namespace Failure

open ValidationError

/-- The diagnostic of invalid arguments: the sorted problems as context lines, and the advice
to turn signing off when some problem asks for a certificate. -/
theorem format_configuration (e : ValidationError) (color : Bool) :
    (configuration e).diagnostic.format color =
      Diagnostic.errorPrefix color ++ ": invalid arguments\n" ++
        String.join (e.sorted.map fun c => " * " ++ c ++ "\n") ++
        (if e.mentions certificateRequiredText then
          Diagnostic.helpPrefix color ++ ": " ++ Diagnostic.disableSigningHint ++ "\n"
        else "") := by
  by_cases hcert : e.mentions certificateRequiredText = true
  · cases color <;> simp [diagnostic, Diagnostic.format, Diagnostic.errorPrefix,
      Diagnostic.helpPrefix, hcert]
  · cases color <;> simp [diagnostic, Diagnostic.format, Diagnostic.errorPrefix, hcert]

/-- Without colour, the diagnostic of invalid arguments is the error's own text on an
`error: ` line, then the advice about signing when it applies. -/
theorem format_configuration_plain (e : ValidationError) :
    (configuration e).diagnostic.format false =
      "error: " ++ e.message ++ "\n" ++
        (if e.mentions certificateRequiredText then
          "help: " ++ Diagnostic.disableSigningHint ++ "\n"
        else "") := by
  rw [format_configuration, ValidationError.message, ← @String.append_assoc "error: " _ _,
    join_lead_eq_join_trail]
  simp [Diagnostic.errorPrefix, Diagnostic.helpPrefix]

theorem format_configuration_eq_of_perm {e e' : ValidationError}
    (h : e.problems.Perm e'.problems) (color : Bool) :
    (configuration e).diagnostic.format color = (configuration e').diagnostic.format color := by
  rw [format_configuration, format_configuration, sorted_eq_of_perm h,
    mentions_eq_of_perm h]

end Failure

namespace ValidationError

/-- **The problem report.** An error built by any calls lists its problems in the order they
were added, and its sorted list is their sorted permutation. Its text is `invalid arguments`
with one `\n * ` line per sorted problem; its plain diagnostic is that text on an `error: `
line, with the advice to skip signing exactly when some problem asks for a certificate. The
text, the sorted list and the diagnostic in either colour are the same for every error whose
problems are a permutation of these. -/
theorem report_law (calls : List Addition) :
    (build calls).problems = calls.flatMap Addition.added ∧
    (build calls).sorted.Perm (build calls).problems ∧
    (build calls).sorted.Pairwise (· ≤ ·) ∧
    (build calls).message =
      "invalid arguments" ++ String.join ((build calls).sorted.map ("\n * " ++ ·)) ∧
    (Failure.configuration (build calls)).diagnostic.format false =
      "error: " ++ (build calls).message ++ "\n" ++
        (if ∃ p ∈ (build calls).problems, "Certificate file is required".toList <:+: p.toList
        then "help: Pass `-n` to skip signing for local builds\n" else "") ∧
    ∀ calls' : List Addition, (build calls').problems.Perm (build calls).problems →
      (build calls').message = (build calls).message ∧
      (build calls').sorted = (build calls).sorted ∧
      ∀ color, (Failure.configuration (build calls')).diagnostic.format color =
        (Failure.configuration (build calls)).diagnostic.format color := by
  refine ⟨problems_build calls, sorted_perm _, sorted_pairwise _, rfl, ?_, fun calls' h =>
    ⟨message_eq_of_perm h, sorted_eq_of_perm h, Failure.format_configuration_eq_of_perm h⟩⟩
  rw [Failure.format_configuration_plain]
  by_cases hcert :
      ∃ p ∈ (build calls).problems, "Certificate file is required".toList <:+: p.toList
  · have hm : (build calls).mentions Failure.certificateRequiredText = true :=
      (mentions_iff _ _).2 hcert
    rw [if_pos hm, if_pos hcert]
    simp [Diagnostic.disableSigningHint]
  · have hm : ¬(build calls).mentions Failure.certificateRequiredText = true :=
      fun h => hcert ((mentions_iff _ _).1 h)
    rw [if_neg hm, if_neg hcert]

end ValidationError

end ReleaseBuild
