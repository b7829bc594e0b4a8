import SchemaCompiler.Classification
import SchemaCompiler.Database

/-!
Signatures: the field lists of descriptions that are used as mixins. A signature's fields are its
own, then those of its mixins in listed order. Each is compiled once per database and then kept in
a cache, however many tables and signatures share it. A lookup that finds nothing counts as a miss
once the signature is compiled, so failed ones are not counted.
-/
namespace SchemaCompiler

/-- A compiled signature. -/
structure Signature where
  /-- Tells the compilations of one cache apart. -/
  serial : Nat
  name : String
  fields : List FieldDefinition

namespace Signature

def fieldNames (signature : Signature) : List String :=
  signature.fields.map FieldDefinition.name

end Signature

structure SignatureCache where
  /-- Compiled signatures by database and description. -/
  entries : OrderedMap (String × Nat) Signature := .empty
  hits : Nat := 0
  misses : Nat := 0
  /-- The databases and descriptions that this cache ever compiled something for, latest first. -/
  compiled : List (String × Nat) := []

namespace SignatureCache

def size (cache : SignatureCache) : Nat := cache.entries.size

def isEmpty (cache : SignatureCache) : Bool := cache.entries.isEmpty

def contains (cache : SignatureCache) (database : String) (identity : Nat) : Bool :=
  cache.entries.contains (database, identity)

/-- The share of hits among the counted lookups, rounded; zero if there were none. -/
def hitRate (cache : SignatureCache) : Option Binary64 :=
  let total := cache.hits + cache.misses
  if total = 0 then some (.zero false) else Binary64.ofRatio false cache.hits total

/-- Counts a lookup that found something. -/
def hit (cache : SignatureCache) : SignatureCache := { cache with hits := cache.hits + 1 }

/-- Keeps a freshly compiled signature, and counts the lookup that asked for it. -/
def keep (cache : SignatureCache) (database : String) (identity : Nat) (name : String)
    (fields : List FieldDefinition) : Signature × SignatureCache :=
  let signature : Signature := ⟨cache.compiled.length, name, fields⟩
  (signature, { cache with
    entries := cache.entries.insert (database, identity) signature
    misses := cache.misses + 1
    compiled := (database, identity) :: cache.compiled })

/-- Drops what was compiled for a database. The counts stay. -/
def evict (cache : SignatureCache) (database : String) : SignatureCache :=
  { cache with entries := cache.entries.filter fun key _ => key.1 ≠ database }

/-- Drops everything and starts counting anew. -/
def clear (cache : SignatureCache) : SignatureCache :=
  { cache with entries := .empty, hits := 0, misses := 0 }

end SignatureCache

/-- What resolving a signature reads and changes: the cache, and the number of field sources the
database was asked for. -/
structure ResolveState where
  cache : SignatureCache
  fieldSources : Nat

/-- A step of resolving signatures. What it did to the state stays done when it fails. -/
abbrev Resolve := ExceptT BuildError (StateM ResolveState)

namespace Resolve

/-- Asks the database for a field source and keeps the answer in the cache. -/
def compileSource (database : String) (identity : Nat) (name : String)
    (fields : List FieldDefinition) : Resolve Signature := do
  modify fun state => { state with fieldSources := state.fieldSources + 1 }
  match ({ name, fields } : TableDefinition).fieldSource with
  | .error refusal => throw (.layer refusal)
  | .ok fields => modifyGet fun state =>
    let (signature, cache) := state.cache.keep database identity name fields
    (signature, { state with cache })

end Resolve

mutual

/-- The compiled signature of a description, compiled now unless the cache has it. -/
def Description.resolve {κ : Type} (database : String) (lookup : TableLookup) :
    Description κ → Resolve Signature
  | ⟨identity, name, members, mixins⟩ => do
    match (← get).cache.entries.get? (database, identity) with
    | some signature =>
      modify fun state => { state with cache := state.cache.hit }
      return signature
    | none =>
      let own ← (⟨identity, name, members, mixins⟩ : Description κ).classify name lookup
      let nested ← resolveMixins database lookup mixins
      Resolve.compileSource database identity name (own.fields ++ nested)

/-- The fields of mixins, one mixin after the other. -/
def resolveMixins {κ : Type} (database : String) (lookup : TableLookup) :
    List (Description κ) → Resolve (List FieldDefinition)
  | [] => return []
  | mixin :: rest => do
    let signature ← mixin.resolve database lookup
    return signature.fields ++ (← resolveMixins database lookup rest)

end

end SchemaCompiler
