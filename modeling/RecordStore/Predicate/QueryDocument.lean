import RecordStore.Predicate.Basic

/-!
# Predicates as query documents

A document server takes a predicate as a document. Each clause becomes an entry
that maps its field to a document of operators, and the entries of a document
are conjoined. Alternatives on a field have no operator of their own: they
become an entry `$or` over one document for each alternative. A document has
room for a single `$or`, so where several fields have alternatives, their
entries stand in documents of their own under one `$and`.

Entries on fields come first, in the order of the fields' names, and the entry
for the alternatives comes last.
-/

namespace RecordStore

namespace Operator

/-- The operator of equality. -/
def eq : String := "$eq"

/-- The operator of membership in a list. -/
def among : String := "$in"

/-- The operator of the lower bound. -/
def atLeast : String := "$gte"

/-- The operator of the upper bound. -/
def atMost : String := "$lte"

/-- The operator of disjunction. -/
def or : String := "$or"

/-- The operator of conjunction. -/
def and : String := "$and"

end Operator

/-- The operators that bounds stand for. -/
def Bounds.operators (bounds : Bounds) : Document :=
  (bounds.atLeast.toList.map fun value => (Operator.atLeast, value))
    ++ bounds.atMost.toList.map fun value => (Operator.atMost, value)

/-- The query document of a single clause. -/
def Clause.query (field : String) : Clause → Document
  | equals value => [(field, .document [(Operator.eq, value)])]
  | among values => [(field, .document [(Operator.among, .array values)])]
  | within bounds => [(field, .document bounds.operators)]
  | withinAny alternatives =>
    [(Operator.or,
      .array (alternatives.map fun bounds => .document [(field, .document bounds.operators)]))]

namespace Predicate

/-- The query documents of the clauses, one by one. -/
def clauseQueries (predicate : Predicate) : List Document :=
  predicate.entries.map fun (field, clause) => clause.query field

/-- Joins the query documents of clauses. -/
def joinQueries (queries : List Document) : Document :=
  let (alternatives, fields) := queries.partition fun query => query.contains Operator.or
  let plain := Entries.ofList fields.flatten
  match alternatives with
  | [] => plain
  | [single] => plain.insertAll single
  | several => plain.insert Operator.and (.array (several.map .document))

/-- **The query document of a predicate.** -/
def query (predicate : Predicate) : Document :=
  joinQueries predicate.clauseQueries

end Predicate

end RecordStore
