import Scaffold.Proofs.Validity

/-!
# Reports by their codes

The code of a diagnostic tells which rule was broken, and its path where.  For one rule, the paths
in their order are those of the findings with that code, in the report of one lint and in a whole
validation.
-/

namespace Scaffold

def placesOf (code : DiagnosticCode) (ds : List Diagnostic) : List String :=
  (ds.filter (·.code = code)).map Diagnostic.path

theorem placesOf_findings (code : DiagnosticCode) (found : List Finding) :
    placesOf code (found.map Finding.diagnostic) =
      (found.filter (·.code = code)).map Finding.path := by
  rw [placesOf, List.filter_map, List.map_map]
  rfl

/-- Findings that share a code are all there for it, and not there for another. -/
theorem filter_code {found : List Finding} {c : DiagnosticCode} (h : ∀ f ∈ found, f.code = c)
    (code : DiagnosticCode) :
    found.filter (·.code = code) = if c = code then found else [] := by
  split
  · exact List.filter_eq_self.mpr fun f hf ↦ by simpa [h f hf]
  · exact List.filter_eq_nil_iff.mpr fun f hf ↦ by simpa [h f hf]

/-- A code of an error is reported among the errors, wherever the lints find it. -/
theorem Manifest.placesOf_errors [Pattern.Checker] (m : Manifest) {code : DiagnosticCode}
    (herror : code.severity = .error) :
    placesOf code m.validate.errors =
      ((Lint.findings m.normalize).filter (·.code = code)).map Finding.path := by
  rw [← placesOf_findings, ← Lint.run_builtIn]
  have hblocks : ∀ d : Diagnostic, d.code = code → d.isError = true := by
    rintro d rfl
    simp [Diagnostic.isError, Diagnostic.severity, herror]
  change placesOf code ((Lint.run Lint.builtIn m.normalize).filter (·.isError)) = _
  rw [placesOf, List.filter_filter, placesOf]
  refine congrArg (List.map _) (List.filter_congr fun d _ ↦ ?_)
  by_cases hcode : d.code = code
  · simp [hcode, hblocks d hcode]
  · simp [hcode]

end Scaffold
