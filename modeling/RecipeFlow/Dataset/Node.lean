import RecipeFlow.Engine.Server
import RecipeFlow.Recipe.Basic

/-! Datasets that a node of a repository knows: it lists the files of a dataset on request. -/
namespace RecipeFlow.Dataset

/-- What lists the files of datasets; it may change the state around it. -/
structure Resolver (σ : Type) where
  list : String → σ → Except Fault (List DataObject) × σ

/-- Knows the files of some datasets, and none of any other. -/
def Resolver.ofTable {σ : Type} (t : Table (List DataObject)) : Resolver σ where
  list dataset s := (.ok ((Table.find? dataset t).getD []), s)

/-- A resolver beside a state of something else. -/
def Resolver.beside {σ τ : Type} (r : Resolver σ) : Resolver (τ × σ) where
  list dataset s := let (a, t) := r.list dataset s.2; (a, s.1, t)

namespace Node

/-- How many files are asked for. -/
def rowLimit : Nat := 100

/-- The condition for the files of a dataset, without its descriptions. -/
def condition (dataset : String) : String :=
  "resourceMap:\"" ++ dataset ++ "\" AND -formatType:METADATA"

/-- The pairs of a question for the files of a dataset. -/
def parameters (dataset : String) : List (String × String) :=
  [("q", condition dataset), ("fl", "id,title,formatId,size,fileName"),
    ("rows", toString rowLimit), ("wt", "json")]

/-- The pairs, each name and value in form encoding. -/
def encodePairs (ps : List (String × String)) : String :=
  "&".intercalate (ps.map fun (k, v) => Url.formEncode k ++ "=" ++ Url.formEncode v)

/-- Adds pairs to the query of a locator. -/
def addPairs (ps : List (String × String)) (u : Url) : Url :=
  let old := match u.query with
    | some q => if q.isEmpty then [] else q ++ ['&']
    | none => []
  { u with query := some (old ++ (encodePairs ps).toList) }

/-- Where a node is asked for files. -/
def queryUrl (node : String) : String :=
  Text.trimSlashes node ++ "/v2/query/solr/"

/-- Where a node has a file. -/
def objectUrl (node id : String) : String :=
  Text.trimSlashes node ++ "/v2/object/" ++ Url.formEncode id

/-- A file as a node lists it. Its names may be one text or several. -/
structure Entry where
  id : String
  title : Option String
  formatId : Option String
  size : Option Nat
  names : List String
  deriving DecidableEq, Repr, Inhabited

/-- What follows the last colon, or everything when there is none. -/
def afterLastColon (s : String) : String :=
  String.ofList (s.toList.reverse.takeWhile (· != ':')).reverse

/-- The first name, or the last part of the identifier. -/
def Entry.filename (e : Entry) : String :=
  e.names.head?.getD (afterLastColon e.id)

/-- The file of an entry. -/
def Entry.object (node : String) (e : Entry) : DataObject :=
  ⟨e.id, objectUrl node e.id, e.filename, e.formatId.getD "", e.size.getD 0,
    e.title.getD e.filename⟩

open Server

def size? : Json → Option Nat
  | .int i => if i < 0 then none else some i.toNat
  | _ => none

def names? : Json → Option (List String)
  | .null => some []
  | .str s => some [s]
  | .arr vs => vs.mapM text?
  | _ => none

def entry? (v : Json) : Option Entry := do
  return ⟨← text? (← v.get? "id"), ← member "title" none (nullable text?) v,
    ← member "formatId" none (nullable text?) v, ← member "size" none (nullable size?) v,
    ← member "fileName" [] names? v⟩

/-- The entries of an answer. -/
def entries? (v : Json) : Option (List Entry) := do
  member "docs" [] (list? entry?) (← v.get? "response")

/-- The fault of a question that failed. -/
def failed (message : String) (f : Http.Failure) : Fault :=
  .resolution Code.resolutionRequestFailed (message ++ ": " ++ f.text) (some f.text)

/-- What the answer of a node says. -/
def readListed (node dataset : String) (a : Except Http.Failure Http.Response) :
    Except Fault (List DataObject) := do
  let r ← a.mapError (failed ("Failed to resolve dataset " ++ dataset))
  let es ← (r.decode entries?).mapError
    (failed ("Failed to parse DataONE response for " ++ dataset))
  return es.map (Entry.object node)

/-- The question for the files of a dataset. -/
def request (node dataset : String) : Except Http.Failure Http.Request :=
  match Url.parse (queryUrl node) with
  | .error _ => .error .badUrl
  | .ok u =>
    if !u.hasHost then .error (.unsendable u)
    else
      let u := addPairs (parameters dataset) u
      if Http.isSendable u then .ok ⟨.get, u, none⟩ else .error (.unsendable u)

/-- The resolver that asks a node. -/
def resolver {ν : Type} (net : Http.Network ν) (node : String) : Resolver ν where
  list dataset s :=
    match request node dataset with
    | .error f => (readListed node dataset (.error f), s)
    | .ok r =>
      let (a, s) := net.send r s
      (readListed node dataset (a.bind (·.accepted r.url)), s)

end Node

end RecipeFlow.Dataset
