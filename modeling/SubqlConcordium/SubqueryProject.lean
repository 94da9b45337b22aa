import SubqlConcordium.Js.Object
import SubqlConcordium.Manifest

/-!
# Loading a project

`loadProjectFromManifestBase` makes a project of a parsed manifest: it puts the overrides of the
command line over the network of the manifest, settles the chain id, and reads the schema, the data
sources and the templates. Reading and checking files is left to other packages.

## Mutation

The function assigns to the manifest that it is given: a single endpoint is replaced by a list in
place. The assignments to the network are made on a fresh object, into which the manifest's network
and the overrides were spread. In the model both are new values, and `listEndpoint` is a function of
the manifest of its own, so that loading a manifest twice can be spoken of.

The chain id is settled on the merged network. An override that names it therefore comes before the
manifest does.

## Main definitions

* `ProjectManifest`, `SubqueryProject` — a parsed manifest, and the project made of it
* `settleChainId`, `processChainId` — one chain id out of two properties
* `loadProjectFromManifestBase` — the project
* `Loads` — the inputs for which it does not throw

## Main results

* `processChainId_eq_ok_iff` — what becomes of a network
* `load_eq_ok_iff`, `load_returns_iff` — the project that is loaded, and when one is
-/

namespace SubqlConcordium

open Js

structure NodeSpec where
  name : String
  version : String

structure RunnerSpecs where
  node : NodeSpec
  query : Value

/-- A parsed manifest, an instance of `ProjectManifestV1_0_0Impl`, as far as loading reads it. -/
structure ProjectManifest where
  network : Obj
  /-- `schema.file`. -/
  schemaFile : String
  dataSources : List ConcordiumDatasource
  templates : Value
  runner : RunnerSpecs
  parent : Value

structure SubqueryProject where
  id : String
  root : String
  network : Obj
  dataSources : List ConcordiumDatasource
  schema : Value
  templates : Value
  runner : RunnerSpecs
  parent : Value

/-- What loading a project is given besides: the version of this package, the reader, and the
functions of other packages. -/
structure Loader where
  packageVersion : String
  /-- `reader.root`. -/
  root : Optional String
  /-- `reader.getFile`. -/
  getFile : String → Except JsError String
  buildSchemaFromString : String → Except JsError Value
  updateDataSourcesV1_0_0 : List ConcordiumDatasource → String → (ConcordiumDatasource → Bool) →
    Except JsError (List ConcordiumDatasource)
  loadProjectTemplates : Value → String → (ConcordiumDatasource → Bool) → Except JsError Value
  validateSemver : String → String → Bool

/-! ### The network -/

/-- `if (o.genesisHash && !o.chainId) o.chainId = o.genesisHash`. -/
def settleChainId (o : Obj) : Obj :=
  if (o.prop "genesisHash").truthy && !(o.prop "chainId").truthy then
    o.put "chainId" (o.prop "genesisHash")
  else o

def processChainId (network : Obj) : Except JsError Obj :=
  if (network.prop "chainId").truthy && (network.prop "genesisHash").truthy then
    .error (plainError "Please only provide one of chainId and genesisHash")
  else .ok ((settleChainId network).without "genesisHash")

/-- A single endpoint of the manifest becomes a list. The manifest is left like this. -/
def ProjectManifest.listEndpoint (manifest : ProjectManifest) : ProjectManifest :=
  let endpoint := manifest.network.prop "endpoint"
  if endpoint.typeof = "string" then
    { manifest with network := manifest.network.put "endpoint" (.arr [endpoint]) }
  else manifest

/-- The network of the manifest with the overrides, if there are any, over it. -/
def mergedNetwork (manifest : ProjectManifest) (networkOverrides : Option Obj) : Obj :=
  manifest.listEndpoint.network.assign (networkOverrides.getD [])

/-- A chain id in a message. It is a string where there is one. -/
def chainIdText : Value → String
  | .str s => s
  | .null => "null"
  | _ => "undefined"

/-- The identifier of a project: `reader.root ? reader.root : path`. -/
def Loader.projectId (loader : Loader) (path : String) : String :=
  if loader.root.truthyStr then loader.root.get?.getD path else path

/-- The schema file. Whatever goes wrong, the error only names the file. -/
def Loader.readSchema (loader : Loader) (file : String) : Except JsError String :=
  match loader.getFile file with
  | .ok schemaString => .ok schemaString
  | .error _ => .error (plainError s!"unable to fetch the schema from {file}")

def loadProjectFromManifestBase (loader : Loader) (projectManifest : ProjectManifest)
    (path root : String) (networkOverrides : Option Obj) : Except JsError SubqueryProject := do
  let network ← processChainId (mergedNetwork projectManifest networkOverrides)
  let chainId := chainIdText (network.prop "chainId")
  if (network.prop "endpoint").truthy then do
    let schemaString ← loader.readSchema projectManifest.schemaFile
    let schema ← loader.buildSchemaFromString schemaString
    let dataSources ← loader.updateDataSourcesV1_0_0 projectManifest.dataSources root isCustomDs
    let templates ← loader.loadProjectTemplates projectManifest.templates root isCustomDs
    let runner := projectManifest.runner
    let version := runner.node.version
    if loader.validateSemver loader.packageVersion version then
      return ⟨loader.projectId path, root, network, dataSources, schema, templates, runner,
        projectManifest.parent⟩
    else throw (plainError
      s!"Runner require node version {version}, current node {loader.packageVersion}")
  else throw (plainError
    s!"Network endpoint must be provided for network. chainId=\"{chainId}\"")

/-! ### What becomes of the network -/

variable {network processed : Obj} {manifest : ProjectManifest} {loader : Loader}
  {path root : String} {networkOverrides : Option Obj} {project : SubqueryProject}

/-- **What becomes of a network**, which may not give both. -/
theorem processChainId_eq_ok_iff :
    processChainId network = .ok processed ↔
      ¬ ((network.prop "chainId").truthy ∧ (network.prop "genesisHash").truthy) ∧
        processed = (settleChainId network).without "genesisHash" := by
  cases hc : (network.prop "chainId").truthy <;> cases hg : (network.prop "genesisHash").truthy <;>
    simp [processChainId, hc, hg, eq_comm]

theorem lookup_of_processChainId (h : processChainId network = .ok processed) {k : String}
    (hchainId : k ≠ "chainId") (hgenesisHash : k ≠ "genesisHash") :
    processed.lookup k = network.lookup k := by
  obtain ⟨-, rfl⟩ := processChainId_eq_ok_iff.mp h
  rw [Obj.lookup_without_of_ne hgenesisHash, settleChainId]
  split_ifs
  · exact Obj.lookup_put_of_ne _ _ hchainId
  · rfl

theorem lookup_listEndpoint {k : String} (hk : k ≠ "endpoint") :
    manifest.listEndpoint.network.lookup k = manifest.network.lookup k := by
  rw [ProjectManifest.listEndpoint]
  split_ifs
  · exact Obj.lookup_put_of_ne _ _ hk
  · rfl

theorem lookup_mergedNetwork {k : String} (hk : k ≠ "endpoint")
    (hoverrides : (networkOverrides.getD []).lookup k = none) :
    (mergedNetwork manifest networkOverrides).lookup k = manifest.network.lookup k := by
  rw [mergedNetwork, Obj.lookup_assign, hoverrides, Option.none_or, lookup_listEndpoint hk]

/-! ### When a project is loaded -/

/-- Everything that is read and checked besides the network is there. -/
structure Loader.Ready (loader : Loader) (manifest : ProjectManifest) (root : String) : Prop where
  schema : ∃ s, loader.getFile manifest.schemaFile = .ok s ∧
    ∃ schema, loader.buildSchemaFromString s = .ok schema
  dataSources : ∃ dataSources,
    loader.updateDataSourcesV1_0_0 manifest.dataSources root isCustomDs = .ok dataSources
  templates : ∃ templates,
    loader.loadProjectTemplates manifest.templates root isCustomDs = .ok templates
  version : loader.validateSemver loader.packageVersion manifest.runner.node.version = true

/-- The inputs for which loading does not throw: at most one of chain id and genesis hash, an
endpoint, and everything else. -/
def Loads (loader : Loader) (manifest : ProjectManifest) (root : String)
    (networkOverrides : Option Obj) : Prop :=
  ¬ (((mergedNetwork manifest networkOverrides).prop "chainId").truthy ∧
      ((mergedNetwork manifest networkOverrides).prop "genesisHash").truthy) ∧
    ((mergedNetwork manifest networkOverrides).prop "endpoint").truthy ∧
      loader.Ready manifest root

theorem readSchema_eq_ok_iff {file s : String} :
    loader.readSchema file = .ok s ↔ loader.getFile file = .ok s := by
  rw [Loader.readSchema]
  cases loader.getFile file <;> simp

/-- **The project that is loaded.** -/
theorem load_eq_ok_iff :
    loadProjectFromManifestBase loader manifest path root networkOverrides = .ok project ↔
      ∃ network s schema dataSources templates,
        processChainId (mergedNetwork manifest networkOverrides) = .ok network ∧
          (network.prop "endpoint").truthy = true ∧ loader.getFile manifest.schemaFile = .ok s ∧
          loader.buildSchemaFromString s = .ok schema ∧
          loader.updateDataSourcesV1_0_0 manifest.dataSources root isCustomDs = .ok dataSources ∧
          loader.loadProjectTemplates manifest.templates root isCustomDs = .ok templates ∧
          loader.validateSemver loader.packageVersion manifest.runner.node.version = true ∧
          project = ⟨loader.projectId path, root, network, dataSources, schema, templates,
            manifest.runner, manifest.parent⟩ := by
  rw [loadProjectFromManifestBase]
  constructor
  · intro h
    obtain ⟨network, hnetwork, h⟩ := bind_eq_ok_iff.mp h
    split_ifs at h with hendpoint
    · obtain ⟨s, hs, h⟩ := bind_eq_ok_iff.mp h
      obtain ⟨schema, hschema, h⟩ := bind_eq_ok_iff.mp h
      obtain ⟨dataSources, hdataSources, h⟩ := bind_eq_ok_iff.mp h
      obtain ⟨templates, htemplates, h⟩ := bind_eq_ok_iff.mp h
      dsimp only at h
      split_ifs at h with hversion
      · cases h
        exact ⟨network, s, schema, dataSources, templates, hnetwork, hendpoint,
          readSchema_eq_ok_iff.mp hs, hschema, hdataSources, htemplates, hversion, rfl⟩
  · rintro ⟨network, s, schema, dataSources, templates, hnetwork, hendpoint, hfile, hschema,
      hdataSources, htemplates, hversion, rfl⟩
    simp [hnetwork, hendpoint, readSchema_eq_ok_iff.mpr hfile, hschema, hdataSources, htemplates,
      hversion, bind, Except.bind, pure, Except.pure]

theorem network_of_load
    (h : loadProjectFromManifestBase loader manifest path root networkOverrides = .ok project) :
    processChainId (mergedNetwork manifest networkOverrides) = .ok project.network := by
  obtain ⟨network, s, schema, dataSources, templates, hnetwork, -, -, -, -, -, -, rfl⟩ :=
    load_eq_ok_iff.mp h
  exact hnetwork

theorem endpoint_of_processChainId (h : processChainId network = .ok processed) :
    processed.prop "endpoint" = network.prop "endpoint" := by
  rw [Obj.prop, Obj.prop, lookup_of_processChainId h (by decide) (by decide)]

/-- **When a project is loaded.** -/
theorem load_returns_iff :
    (∃ project, loadProjectFromManifestBase loader manifest path root networkOverrides =
      .ok project) ↔ Loads loader manifest root networkOverrides := by
  constructor
  · rintro ⟨project, h⟩
    obtain ⟨network, s, schema, dataSources, templates, hnetwork, hendpoint, hfile, hschema,
      hdataSources, htemplates, hversion, -⟩ := load_eq_ok_iff.mp h
    rw [endpoint_of_processChainId hnetwork] at hendpoint
    exact ⟨(processChainId_eq_ok_iff.mp hnetwork).1, hendpoint, ⟨s, hfile, schema, hschema⟩,
      ⟨dataSources, hdataSources⟩, ⟨templates, htemplates⟩, hversion⟩
  · rintro ⟨hchainId, hendpoint, ⟨s, hfile, schema, hschema⟩, ⟨dataSources, hdataSources⟩,
      ⟨templates, htemplates⟩, hversion⟩
    have hnetwork := processChainId_eq_ok_iff.mpr ⟨hchainId, rfl⟩
    rw [← endpoint_of_processChainId hnetwork] at hendpoint
    exact ⟨_, load_eq_ok_iff.mpr ⟨_, s, schema, dataSources, templates, hnetwork, hendpoint, hfile,
      hschema, hdataSources, htemplates, hversion, rfl⟩⟩

/-! ### A manifest -/

/-- A loader that finds every file, and to which every version is right. -/
def Loader.reference : Loader where
  packageVersion := "1.0.0"
  root := .undefined
  getFile := fun _ => .ok "type Transfer @entity \x7b id: ID! \x7d"
  buildSchemaFromString := fun s => .ok (.str s)
  updateDataSourcesV1_0_0 := fun dataSources _ _ => .ok dataSources
  loadProjectTemplates := fun templates _ _ => .ok templates
  validateSemver := fun _ _ => true

def manifestOf (network : Obj) : ProjectManifest where
  network := network
  schemaFile := "./schema.graphql"
  dataSources := []
  templates := .undefined
  runner := ⟨⟨"@subql/node-concordium", "*"⟩, .undefined⟩
  parent := .undefined

/-- The project that is made of it, with a network. -/
def projectOf (network : Obj) : SubqueryProject where
  id := "./"
  root := "./"
  network := network
  dataSources := []
  schema := .str "type Transfer @entity \x7b id: ID! \x7d"
  templates := .undefined
  runner := ⟨⟨"@subql/node-concordium", "*"⟩, .undefined⟩
  parent := .undefined

example :
    loadProjectFromManifestBase .reference
      (manifestOf [("endpoint", .str "http://localhost:20000")]) "./" "./" none =
        .ok (projectOf [("endpoint", .arr [.str "http://localhost:20000"])]) :=
  rfl

end SubqlConcordium
