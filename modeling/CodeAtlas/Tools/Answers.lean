import CodeAtlas.Contexts
import CodeAtlas.Indexing.Libraries
import CodeAtlas.Json.Printer
import CodeAtlas.Quality.Review
import CodeAtlas.Review.Analysis
import CodeAtlas.Review.Comparison
import CodeAtlas.Review.Validation

/-! Reports as JSON objects. -/

namespace CodeAtlas

open CodeAtlas.Graph

abbrev Fields := List (String × Json)

abbrev WrittenFields := List (String × Json.Written)

def Fields.written (fields : Fields) : WrittenFields :=
  fields.map fun (name, value) => (name, value.written)

def labelCounts (counts : List (Label × Nat)) : Json :=
  .object (counts.map fun (label, count) => (label.name, .nat count))

def edgeCounts (counts : List (EdgeType × Nat)) : Json :=
  .object (counts.map fun (type, count) => (type.name, .nat count))

def Relations.Failure.toJsonAs (failure : Relations.Failure) (name : Json) : Json :=
  .object
    [("kind", .text failure.kind.name), ("name", name), ("message", .text failure.message)]

def Relations.Failure.toJson (failure : Relations.Failure) : Json :=
  failure.toJsonAs (.text failure.name)

def failuresAs : List Json → List Relations.Failure → List Json
  | name :: names, failure :: failures => failure.toJsonAs name :: failuresAs names failures
  | _, failures => failures.map Relations.Failure.toJson

def failureList (failures : List Relations.Failure) : Json := .list (failuresAs [] failures)

/-- The fields of a report whose path and whose first failures are shown as they were given. -/
def Indexing.Report.fieldsAs (report : Indexing.Report) (path : Json) (names : List Json) :
    Fields :=
  [("file_path", path), ("context", .text report.context),
    ("counts", labelCounts report.counts), ("relationships", edgeCounts report.relationships),
    ("failures", .list (failuresAs names report.failures)), ("success", .bool report.success),
    ("total_indexed", .nat report.totalIndexed)]

def Indexing.Report.fields (report : Indexing.Report) : Fields :=
  report.fieldsAs (Json.ofText? report.filePath) []

def Indexing.DependencyReport.fields (report : Indexing.DependencyReport) : WrittenFields :=
  [("context", Json.written (.text report.context)), ("total_dependencies", .int report.total),
    ("indexed_libraries", .int report.indexedLibraries),
    ("indexed_apis", .int report.indexedApis), ("supported", .list (report.supported.map .text)),
    ("unsupported", .list (report.unsupported.map .text)),
    ("failures", (failureList report.failures).written)]

/-- A judged element; the indexed body is shown only on demand. -/
def Review.Finding.toJson (verbose : Bool) (finding : Review.Finding) : Json :=
  .object ([("name", .text finding.name), ("type", .text finding.label.name),
    ("status", .text finding.status.name), ("message", .text finding.message)]
    ++ if verbose then
      (finding.indexedBody.map fun body => ("indexed_body", Json.text body)).toList
    else [])

def Review.SnippetReport.fields (report : Review.SnippetReport) (verbose : Bool) : Fields :=
  [("context", .text report.context), ("found", .nat report.found),
    ("not_found", .nat report.notFound),
    ("results", .list (report.findings.map (Review.Finding.toJson verbose)))]

def Review.FileReport.summary (report : Review.FileReport) : Json :=
  .object
    [("total", .nat report.findings.length), ("matching", .nat report.same),
      ("modified", .nat report.modified), ("new", .nat report.new)]

def Review.FileReport.results (report : Review.FileReport) (verbose : Bool) : Json :=
  .list (report.findings.map (Review.Finding.toJson verbose))

def Review.FileReport.fields (report : Review.FileReport) (verbose : Bool) : Fields :=
  [("file_path", .text report.path), ("context", .text report.context),
    ("file_exists", .bool report.fileExists), ("status", .text report.status.name),
    ("summary", report.summary), ("results", report.results verbose)]

def Quality.Issue.toJson (issue : Quality.Issue) : Json :=
  .object
    [("kind", .text issue.kind.name), ("element", .text issue.element),
      ("severity", .text issue.severity.name), ("message", .text issue.message),
      ("related", Json.texts issue.related)]

def Quality.Report.fieldsAs (report : Quality.Report) (language : Json) : Fields :=
  [("context", .text report.context), ("language", language),
    ("naming_convention", Json.ofText? (report.convention.map (·.name))),
    ("functions_checked", .nat report.functionsChecked), ("passed", .bool report.passed),
    ("issues", .list (report.issues.map Quality.Issue.toJson))]

def Quality.Report.fields (report : Quality.Report) : Fields :=
  report.fieldsAs (.text report.language)

def Review.ComparedElement.toJson (element : Review.ComparedElement) : Json :=
  .object [("kind", .text element.label.name), ("name", .text element.name)]

/-- The fields of a comparison, with the project and the branches as they were named. -/
def Review.Comparison.fields (comparison : Review.Comparison) (project source target : Json) :
    Fields :=
  let elements (list : List Review.ComparedElement) : Json :=
    .list (list.map Review.ComparedElement.toJson)
  [("project", project), ("source_branch", source), ("target_branch", target),
    ("source_count", .nat comparison.sourceCount), ("target_count", .nat comparison.targetCount),
    ("only_in_source", elements comparison.onlyInSource),
    ("only_in_target", elements comparison.onlyInTarget), ("in_both", elements comparison.inBoth)]

def Contexts.Summary.toJson (summary : Contexts.Summary) : Json :=
  .object
    [("context", .text summary.context), ("project", .text summary.branchContext.project),
      ("branch", .text summary.branchContext.branch), ("files", .nat summary.files),
      ("functions", .nat summary.functions), ("classes", .nat summary.classes),
      ("components", .nat summary.components), ("nodes", .nat summary.total)]

def Review.Relation.toJson (relation : Review.Relation) : Json :=
  .object
    [("source", .text relation.source), ("target", .text relation.target),
      ("rel_type", .text relation.type.name), ("details", relation.details)]

def orphanJson (orphan : Label × String) : Json :=
  .object [("label", .text orphan.1.name), ("name", .text orphan.2)]

def Review.RelationshipReport.fields (report : Review.RelationshipReport) : Fields :=
  [("context", .text report.context), ("analysis_type", .text report.analysis.name),
    ("relationships", .list (report.relations.map Review.Relation.toJson)),
    ("node_counts", labelCounts report.nodeCounts),
    ("orphans", .list (report.orphans.map orphanJson)),
    ("counts_by_type", edgeCounts report.countsByType)]

end CodeAtlas
