import VehicleCanDecoder.Converter.Main
import VehicleCanDecoder.Converter.RunLaw
import VehicleCanDecoder.Converter.YamlTrees
import VehicleCanDecoder.Lib.Layers

/-! The config files of the converter.  `load_yaml` strips the namespace of the node, where both of
its keys are there, and `flatten_yaml` joins the keys of nested maps with dots; `main` lets the
later files overwrite the earlier ones.  A document without anchors is a tree, in which no node is
in two places, so to assign a node is to assign its value. -/

namespace VehicleCanDecoder

/-- The YAML library as `load_yaml` uses it.  `subscript` is `operator[]` of a node that is not
constant: the node under the key, none where it is not defined, and the node itself after the call,
which may change it. -/
structure YamlFiles extends YamlCpp where
  loadFile : ByteString → Except StdException YamlNode
  subscript : YamlNode → ByteString → Except StdException (Option YamlNode × YamlNode)
  badConversion : YamlNode → StdException

namespace Converter

/-! ### `flatten_yaml` and `load_yaml` -/

section Load

variable (Y : YamlFiles)

mutual

/-- `flatten_yaml`. -/
def flattenYaml : YamlNode → ByteString → ParamMap → Except StdException ParamMap
  | .map entries, pre, out => flattenEntries entries pre out
  | node, pre, out => .ok (out.insert pre node)

/-- The loop of `flatten_yaml` over the entries of a map. -/
def flattenEntries : List (YamlNode × YamlNode) → ByteString → ParamMap →
    Except StdException ParamMap
  | [], _, out => .ok out
  | (first, second) :: rest, pre, out => do
    match Y.asString first with
    | none => throw (Y.badConversion first)
    | some text =>
      let key := if pre.isEmpty then text else pre ++ str "." ++ text
      let out ← flattenYaml second key out
      flattenEntries rest pre out

end

/-- `root[key][key']`, which may change the node under `key`. -/
def subscriptTwice (root : YamlNode) (key key' : ByteString) :
    Except StdException (Option YamlNode × YamlNode) := do
  let (node, root) ← Y.subscript root key
  match node with
  | none => pure (none, root)
  | some node =>
    let (value, node) ← Y.subscript node key'
    pure (value, root.setUnder key node)

/-- The part of `load_yaml` between `LoadFile` and `flatten_yaml`. -/
def stripNamespace (root : YamlNode) : Except StdException YamlNode := do
  let (node, root) ← Y.subscript root "vehicle_can_node"
  if node.isNone then pure root
  else
    let (params, root) ← subscriptTwice Y root "vehicle_can_node" "ros__parameters"
    if params.isNone then pure root
    else
      -- The node is looked up again, in what the first lookups have left of the document.
      let (params, root) ← subscriptTwice Y root "vehicle_can_node" "ros__parameters"
      pure (params.getD root)

def loadYaml (path : ByteString) : Except StdException ParamMap := do
  let root ← Y.loadFile path
  let root ← stripNamespace Y root
  flattenYaml Y root [] ∅

/-- The body of the loop of `main` over the config files.  Each loop over what a file has given has
its own order. -/
def mergeConfig (order : Nat → HashOrder) (params : ParamMap) (config : ByteString × Nat) :
    Except StdException ParamMap := do
  let loaded ← loadYaml Y config.1
  pure ((loaded.items (order config.2)).foldl (fun params kv => params.insert kv.1 kv.2) params)

/-- The loop of `main` over the config files: an exception makes `main` return 1. -/
def mergeConfigs (order : Nat → HashOrder) (configs : List ByteString) :
    Except StdException ParamMap :=
  configs.zipIdx.foldlM (mergeConfig Y order) ∅

end Load

end Converter

/-- What `load_yaml` relies on: a scalar converts to its text, and `operator[]` of a map finds what
is under a key and, to all that reads the map, leaves it as it is. -/
structure YamlFiles.Documented (Y : YamlFiles) : Prop where
  asString : ∀ s, Y.asString (.scalar s) = some s
  subscript : ∀ entries key,
    Y.subscript (.map entries) key = .ok ((YamlNode.map entries).under key, .map entries)

namespace YamlNode

/-! ### What a file says -/

/-- What is under the keys of the namespace, where both are there, or else the whole document. -/
def parameterTree (doc : YamlNode) : YamlNode :=
  ((doc.under "vehicle_can_node").bind (under "ros__parameters")).getD doc

/-- The parameter tree of a document has a leaf at a dotted path. -/
def Defines (doc : YamlNode) (path : ByteString) (leaf : YamlNode) : Prop :=
  (path, leaf) ∈ doc.parameterTree.dottedLeaves []

/-- A config document: a map with strings as keys, in which no two parameters have one path. -/
structure ConfigDocument (doc : YamlNode) : Prop where
  isMap : ∃ entries, doc = .map entries
  keys : doc.StringKeys
  distinct : ((doc.parameterTree.dottedLeaves []).map Prod.fst).Nodup

/-- The first key of the namespace has a map, where it is there. -/
def NodeIsMap (doc : YamlNode) : Prop :=
  ∀ node, doc.under "vehicle_can_node" = some node → ∃ entries, node = .map entries

theorem StringKeys.parameterTree {doc : YamlNode} (hKeys : doc.StringKeys) :
    doc.parameterTree.StringKeys := by
  unfold YamlNode.parameterTree
  cases hNode : doc.under "vehicle_can_node" with
  | none => exact hKeys
  | some node =>
    cases hParams : node.under "ros__parameters" with
    | none => simpa [hParams] using hKeys
    | some params => simpa [hParams] using (hKeys.under hNode).under hParams

/-- Documents whose parameter trees are the same but for dotted keys define the same. -/
theorem Rewrites.defines {doc doc' : YamlNode} (h : Rewrites doc.parameterTree doc'.parameterTree)
    (path : ByteString) (leaf : YamlNode) : doc.Defines path leaf ↔ doc'.Defines path leaf :=
  (h.perm []).mem_iff

end YamlNode

namespace Converter

open YamlNode

/-! ### What `flatten_yaml` gives -/

variable {Y : YamlFiles}

mutual

/-- Below some keys, `flatten_yaml` assigns to each dotted path the leaf that it leads to. -/
theorem flattenYaml_eq (hY : Y.Documented) : ∀ node : YamlNode, node.StringKeys →
    ∀ above : List ByteString, (∀ key ∈ above, key ≠ []) → ∀ out : ParamMap,
    flattenYaml Y node (dotted above) out =
      .ok ((node.dottedLeaves above).foldl (fun m e => m.insert e.1 e.2) out)
  | .map entries, hKeys, above, hAbove, out => by
    rw [flattenYaml, dottedLeaves_map]
    exact flattenEntries_eq hY entries hKeys above hAbove out
  | .null, _, above, _, out => by rw [dottedLeaves_leaf (by simp)]; rfl
  | .scalar _, _, above, _, out => by rw [dottedLeaves_leaf (by simp)]; rfl
  | .sequence _, _, above, _, out => by rw [dottedLeaves_leaf (by simp)]; rfl

theorem flattenEntries_eq (hY : Y.Documented) : ∀ entries : List (YamlNode × YamlNode),
    EntryKeys entries → ∀ above : List ByteString, (∀ key ∈ above, key ≠ []) → ∀ out : ParamMap,
    flattenEntries Y entries (dotted above) out =
      .ok ((entries.flatMap fun e => e.2.dottedLeaves (above ++ [e.1.keyText])).foldl
        (fun m e => m.insert e.1 e.2) out)
  | [], _, _, _, out => rfl
  | (first, second) :: rest, hKeys, above, hAbove, out => by
    rw [EntryKeys] at hKeys
    obtain ⟨⟨text, rfl, hText⟩, hSecond, hRest⟩ := hKeys
    have hBelow : ∀ key ∈ above ++ [text], key ≠ [] := by
      intro key hKey
      rcases List.mem_append.mp hKey with hKey | hKey
      · exact hAbove key hKey
      · exact List.mem_singleton.mp hKey ▸ hText
    rw [flattenEntries, hY.asString, List.flatMap_cons, List.foldl_append]
    simp only [dotted_concat hAbove]
    rw [flattenYaml_eq hY second hSecond (above ++ [text]) hBelow out]
    exact flattenEntries_eq hY rest hRest above hAbove _

end

/-- `root[key][key']`, where the node under `key` is a map. -/
theorem subscriptTwice_eq (hY : Y.Documented) {entries : List (YamlNode × YamlNode)}
    {key : ByteString} (hNode : ∀ node, (YamlNode.map entries).under key = some node →
      ∃ inner, node = .map inner) (key' : ByteString) :
    subscriptTwice Y (.map entries) key key' =
      .ok (((YamlNode.map entries).under key).bind (under key'), .map entries) := by
  unfold subscriptTwice
  rw [hY.subscript]
  cases hUnder : (YamlNode.map entries).under key with
  | none => rfl
  | some node =>
    obtain ⟨inner, rfl⟩ := hNode node hUnder
    have hSame := setUnder_under hUnder
    simp only [bind, Except.bind, hY.subscript, Option.bind, hSame]
    rfl

/-- `load_yaml` goes on with the parameter tree of the document. -/
theorem stripNamespace_eq (hY : Y.Documented) {doc : YamlNode}
    (hMap : ∃ entries, doc = .map entries) (hNode : doc.NodeIsMap) : stripNamespace Y doc = .ok doc.parameterTree := by
  obtain ⟨entries, rfl⟩ := hMap
  have hTwice := subscriptTwice_eq hY hNode "ros__parameters"
  unfold stripNamespace parameterTree
  rw [hY.subscript]
  cases hUnder : (YamlNode.map entries).under "vehicle_can_node" with
  | none => rfl
  | some node =>
    rw [hUnder] at hTwice
    simp only [bind, Except.bind, hTwice]
    cases hParams : node.under "ros__parameters" with
    | none => simp [hParams, pure, Except.pure]
    | some params => simp [hParams, pure, Except.pure]

/-- The file at `path` is a config document, with nothing but a map in the place of the node. -/
structure HasConfig (Y : YamlFiles) (path : ByteString) (doc : YamlNode) : Prop where
  loads : Y.loadFile path = .ok doc
  config : doc.ConfigDocument
  nodeIsMap : doc.NodeIsMap

/-- `load_yaml` gives the leaves of the parameter tree. -/
theorem loadYaml_ok (hY : Y.Documented) {path : ByteString} {doc : YamlNode}
    (hFile : HasConfig Y path doc) : ∃ loaded, loadYaml Y path = .ok loaded ∧
      ∀ k leaf, loaded.lookup k = some leaf ↔ doc.Defines k leaf := by
  have hFlatten := flattenYaml_eq hY doc.parameterTree hFile.config.keys.parameterTree []
    (by simp) ∅
  rw [dotted_nil] at hFlatten
  refine ⟨_, ?_, UnorderedMap.lookup_foldl_insert_of_nodup hFile.config.distinct⟩
  unfold loadYaml
  rw [hFile.loads]
  simp only [bind, Except.bind, stripNamespace_eq hY hFile.config.isMap hFile.nodeIsMap]
  exact hFlatten

/-! ### The files, one over the other -/

/-- What one file has given goes over what the files before it have given. -/
theorem mergeConfig_ok (hY : Y.Documented) (order : Nat → HashOrder) (params : ParamMap)
    {path : ByteString} (k : Nat) {doc : YamlNode} (hFile : HasConfig Y path doc) :
    ∃ loaded params' : ParamMap, mergeConfig Y order params (path, k) = .ok params' ∧
      params'.lookup = (fun key => (loaded.lookup key).or (params.lookup key)) ∧
      ∀ key leaf, loaded.lookup key = some leaf ↔ doc.Defines key leaf := by
  obtain ⟨loaded, hLoad, hLeaves⟩ := loadYaml_ok hY hFile
  refine ⟨loaded, _, ?_, funext (params.lookup_foldl_items loaded (order k)), hLeaves⟩
  unfold mergeConfig
  rw [hLoad]
  rfl

/-- The loop over the files writes them as layers over the parameters that are there. -/
theorem foldlM_mergeConfig (hY : Y.Documented) (order : Nat → HashOrder)
    {configs : List ByteString} {docs : List YamlNode}
    (hFiles : List.Forall₂ (HasConfig Y) configs docs) (k : Nat) (params : ParamMap) :
    ∃ params', (configs.zipIdx k).foldlM (mergeConfig Y order) params = .ok params' ∧
      ∀ path leaf, params'.lookup path = some leaf ↔
        Layers.Over Defines docs params.lookup path leaf := by
  induction hFiles generalizing k params with
  | nil =>
    exact ⟨params, rfl, fun path leaf => (Layers.over_nil fun path => params.lookup path).symm⟩
  | cons hFile _ ih =>
    obtain ⟨loaded, first, hFirst, hLookup, hLeaves⟩ := mergeConfig_ok hY order params k hFile
    obtain ⟨params', hRest, hOver⟩ := ih (k + 1) first
    refine ⟨params', ?_, fun path leaf => ?_⟩
    · rw [List.zipIdx_cons, List.foldlM_cons, hFirst]
      exact hRest
    · rw [hOver, hLookup]
      exact Layers.over_cons (hLeaves path)

theorem mergeConfigs_ok (hY : Y.Documented) (order : Nat → HashOrder)
    {configs : List ByteString} {docs : List YamlNode}
    (hFiles : List.Forall₂ (HasConfig Y) configs docs) :
    ∃ params, mergeConfigs Y order configs = .ok params ∧
      ∀ path leaf, params.lookup path = some leaf ↔ Layers.Decides Defines docs path leaf := by
  obtain ⟨params, hRun, hOver⟩ := foldlM_mergeConfig hY order hFiles 0 ∅
  refine ⟨params, hRun, fun path leaf => ?_⟩
  rw [hOver, ← Layers.over_empty]
  exact Iff.rfl

/-! ### `main` on the files -/

/-- The parameters and the conversions are those of the files on the command line. -/
def MainEnv.withConfigs {δ : Type} (M : MainEnv δ) (Y : YamlFiles) (order : Nat → HashOrder)
    (configs : List ByteString) : MainEnv δ :=
  { M with yaml := Y.toYamlCpp, params := mergeConfigs Y order configs }

section Main

variable {δ : Type} (M : MainEnv δ) {Y' : YamlFiles} (order order' : Nat → HashOrder)
  (configs configs' : List ByteString)

/-- Once the options have been read, nothing reads the parameters. -/
theorem convertBatch_withConfigs (r : Ready) (args : Args) :
    convertBatch (M.withConfigs Y' order' configs') r args =
      convertBatch (M.withConfigs Y order configs) r args := by
  have hFiles : convertFiles (M.withConfigs Y' order' configs') r args =
      convertFiles (M.withConfigs Y order configs) r args := by
    funext files
    induction files with
    | nil => rfl
    | cons file rest ih =>
      rw [convertFiles, convertFiles, ih]
      rfl
  unfold convertBatch
  rw [hFiles]
  rfl

/-- `main` is determined by what it has prepared from the files. -/
theorem main_withConfigs (hPrepare : (M.withConfigs Y' order' configs').prepare =
      (M.withConfigs Y order configs).prepare) (args : Args) :
    main (M.withConfigs Y' order' configs') args = main (M.withConfigs Y order configs) args := by
  unfold main
  rw [hPrepare]
  cases (M.withConfigs Y order configs).prepare with
  | error e => rfl
  | ok ready =>
    cases ready with
    | none => rfl
    | some r =>
      have hBatch : convertBatch (M.withConfigs Y' order' configs') r args =
          convertBatch (M.withConfigs Y order configs) r args := convertBatch_withConfigs ..
      simp only [hBatch]
      rfl

end Main

/-! ### Nested maps and dotted keys -/

section Rewritten

variable {Y' : YamlFiles} {configs configs' : List ByteString} {docs docs' : List YamlNode}
  (hY : Y.Documented) (hY' : Y'.Documented) (order order' : Nat → HashOrder)
  (hFiles : List.Forall₂ (HasConfig Y) configs docs)
  (hFiles' : List.Forall₂ (HasConfig Y') configs' docs')
  (hRewrites : List.Forall₂ (fun doc doc' => Rewrites doc.parameterTree doc'.parameterTree)
    docs docs')

include hY hY' hFiles hFiles' hRewrites

/-- Files whose parameter trees are the same but for dotted keys give the same parameters. -/
theorem mergeConfigs_rewritten : ∃ params params', mergeConfigs Y order configs = .ok params ∧
    mergeConfigs Y' order' configs' = .ok params' ∧
    ∀ path, params'.lookup path = params.lookup path := by
  obtain ⟨params, hRun, hLeaves⟩ := mergeConfigs_ok hY order hFiles
  obtain ⟨params', hRun', hLeaves'⟩ := mergeConfigs_ok hY' order' hFiles'
  refine ⟨params, params', hRun, hRun', fun path => Option.ext fun leaf => ?_⟩
  rw [hLeaves', hLeaves]
  exact (Layers.decides_congr (hRewrites.imp fun _ _ h => h.defines)).symm

/-- `main` does the same with them. -/
theorem main_rewritten {δ : Type} (M : MainEnv δ) (hSame : Y'.toYamlCpp = Y.toYamlCpp)
    (args : Args) : main (M.withConfigs Y' order' configs') args =
      main (M.withConfigs Y order configs) args := by
  obtain ⟨params, params', hRun, hRun', hLookup⟩ :=
    mergeConfigs_rewritten hY hY' order order' hFiles hFiles' hRewrites
  refine main_withConfigs M order order' configs configs' ?_ args
  simp only [MainEnv.withConfigs, MainEnv.prepare, hRun, hRun', hSame, buildConfig_congr hLookup]

end Rewritten

/-- The parameters are the leaves of the parameter trees, of which the last one on a path counts.
Nested maps and dotted keys are the same. -/
theorem config_layers (hY : Y.Documented) (order : Nat → HashOrder)
    {configs : List ByteString} {docs : List YamlNode}
    (hFiles : List.Forall₂ (HasConfig Y) configs docs) :
    ∃ params, mergeConfigs Y order configs = .ok params ∧
      (∀ path leaf, params.lookup path = some leaf ↔ Layers.Decides Defines docs path leaf) ∧
      ∀ {Y' : YamlFiles} (order' : Nat → HashOrder) {configs' : List ByteString}
        {docs' : List YamlNode}, Y'.Documented → List.Forall₂ (HasConfig Y') configs' docs' →
        List.Forall₂ (fun doc doc' => Rewrites doc.parameterTree doc'.parameterTree) docs docs' →
        ∃ params', mergeConfigs Y' order' configs' = .ok params' ∧
          ∀ path, params'.lookup path = params.lookup path := by
  obtain ⟨params, hRun, hLeaves⟩ := mergeConfigs_ok hY order hFiles
  refine ⟨params, hRun, hLeaves, fun order' configs' docs' hY' hFiles' hRewrites => ?_⟩
  obtain ⟨_, params', hRunAgain, hRun', hLookup⟩ :=
    mergeConfigs_rewritten hY hY' order order' hFiles hFiles' hRewrites
  obtain rfl := Except.ok.inj (hRun.symm.trans hRunAgain)
  exact ⟨params', hRun', hLookup⟩

/-! ### Sample files -/

/-- `operator[]` of the library: a node that is empty becomes a map, and so does a sequence, with
its indices as keys. -/
def sampleSubscript : YamlNode → ByteString → Except StdException (Option YamlNode × YamlNode)
  | .map entries, key => .ok ((YamlNode.map entries).under key, .map entries)
  | .null, _ => .ok (none, .map [])
  | .sequence l, key =>
    let converted := YamlNode.map (l.zipIdx.map fun e => (.scalar (toDecimal e.2), e.1))
    .ok (converted.under key, converted)
  | .scalar _, _ => .error ⟨"operator[] call on a scalar"⟩

def sampleFiles (files : List (ByteString × YamlNode)) : YamlFiles where
  toYamlCpp := sampleYaml
  loadFile path :=
    match files.lookup path with
    | some doc => .ok doc
    | none => .error ⟨str "bad file: " ++ path⟩
  subscript := sampleSubscript
  badConversion _ := ⟨"bad conversion"⟩

theorem sampleFiles_documented (files : List (ByteString × YamlNode)) :
    (sampleFiles files).Documented := ⟨fun _ => rfl, fun _ _ => rfl⟩

/-- A map with one key. -/
def single (key : ByteString) (value : YamlNode) : YamlNode := .map [(.scalar key, value)]

theorem single_stringKeys {key : ByteString} {value : YamlNode} (hKey : key ≠ [])
    (hValue : value.StringKeys) : (single key value).StringKeys :=
  ⟨⟨key, rfl, hKey⟩, hValue, trivial⟩

theorem single_config {key : ByteString} {value : YamlNode} (hKey : key ≠ [])
    (hValue : value.StringKeys)
    (hDistinct : (((single key value).parameterTree.dottedLeaves []).map Prod.fst).Nodup) :
    (single key value).ConfigDocument :=
  ⟨⟨_, rfl⟩, single_stringKeys hKey hValue, hDistinct⟩

theorem single_inlines (key key' : ByteString) (value : YamlNode) :
    Inlines (single key (single key' value)) (single (key ++ str "." ++ key') value) :=
  .here [] [] [(.scalar key', value)] key

/-- The parameters of a node in its namespace. -/
def baseDoc : YamlNode := single "vehicle_can_node" (single "ros__parameters"
  (.map [(.scalar "can_topic", .scalar "/can"),
    (.scalar "domains", single "chassis" (single "topic" (.scalar "/a")))]))

/-- One of the parameters, in a map under a dotted key. -/
def overlayDoc : YamlNode := single "domains.chassis" (single "topic" (.scalar "/b"))

/-- The same parameter, in nested maps only. -/
def nestedOverlayDoc : YamlNode :=
  single "domains" (single "chassis" (single "topic" (.scalar "/b")))

def layeredFiles (overlay : YamlNode) : YamlFiles :=
  sampleFiles [(str "base.yaml", baseDoc), (str "overlay.yaml", overlay)]

theorem layeredFiles_hasConfig {overlay : YamlNode} (hConfig : overlay.ConfigDocument)
    (hNode : overlay.NodeIsMap) : List.Forall₂ (HasConfig (layeredFiles overlay))
      [str "base.yaml", str "overlay.yaml"] [baseDoc, overlay] := by
  have hParams : StringKeys (.map [(.scalar "can_topic", .scalar "/can"),
      (.scalar "domains", single "chassis" (single "topic" (.scalar "/a")))]) :=
    ⟨⟨_, rfl, by decide⟩, trivial, ⟨_, rfl, by decide⟩,
      single_stringKeys (by decide) (single_stringKeys (by decide) trivial), trivial⟩
  have hBase : baseDoc.ConfigDocument :=
    single_config (by decide) (single_stringKeys (by decide) hParams) (by decide)
  have hBaseNode : baseDoc.NodeIsMap := fun node h => ⟨_, (Option.some.inj h).symm⟩
  exact .cons ⟨rfl, hBase, hBaseNode⟩ (.cons ⟨rfl, hConfig, hNode⟩ .nil)

theorem config_layers_sample : ∃ params params',
    mergeConfigs (layeredFiles overlayDoc) (fun _ => .listed)
      [str "base.yaml", str "overlay.yaml"] = .ok params ∧
    mergeConfigs (layeredFiles nestedOverlayDoc) (fun _ => .listed)
      [str "base.yaml", str "overlay.yaml"] = .ok params' ∧
    params.lookup (str "domains.chassis.topic") = some (.scalar "/b") ∧
    params.lookup (str "can_topic") = some (.scalar "/can") ∧
    ∀ path, params'.lookup path = params.lookup path := by
  have hOverlay : overlayDoc.ConfigDocument :=
    single_config (by decide) (single_stringKeys (by decide) trivial) (by decide)
  have hNested : nestedOverlayDoc.ConfigDocument := single_config (by decide)
    (single_stringKeys (by decide) (single_stringKeys (by decide) trivial)) (by decide)
  have hRewrites : Rewrites overlayDoc nestedOverlayDoc :=
    .symm _ _ (.rel _ _ (single_inlines "domains" "chassis" _))
  have hLeaf : overlayDoc.parameterTree.dottedLeaves [] =
      [(str "domains.chassis.topic", .scalar "/b")] := rfl
  obtain ⟨params, hRun, hLeaves, hSame⟩ := config_layers (sampleFiles_documented _)
    (fun _ => .listed) (layeredFiles_hasConfig hOverlay nofun)
  obtain ⟨params', hRun', hLookup⟩ := hSame (fun _ => .listed) (sampleFiles_documented _)
    (layeredFiles_hasConfig hNested nofun) (.cons (.refl _) (.cons hRewrites .nil))
  refine ⟨params, params', hRun, hRun', ?_, ?_, hLookup⟩
  · refine (hLeaves _ _).mpr ⟨[baseDoc], overlayDoc, [], rfl, ?_, Layers.undefined_nil⟩
    rw [Defines, hLeaf]
    exact List.mem_cons_self
  · refine (hLeaves _ _).mpr ⟨[], baseDoc, [overlayDoc], rfl, List.mem_cons_self, ?_⟩
    intro layer hLayer leaf hDefines
    rw [List.mem_singleton.mp hLayer, Defines, hLeaf] at hDefines
    have hPath := (Prod.mk.inj (List.mem_singleton.mp hDefines)).1
    exact absurd hPath (by decide)

/-- The parameters that one file gives. -/
def oneFile (doc : YamlNode) : Except StdException ParamMap :=
  mergeConfigs (sampleFiles [(str "a.yaml", doc)]) (fun _ => .listed) [str "a.yaml"]

/-- A parameter of the node, with dotted keys. -/
def flatDoc : YamlNode := single "vehicle_can_node.ros__parameters.can_topic" (.scalar "/can")

/-- The same parameter, with nested maps. -/
def nestedDoc : YamlNode :=
  single "vehicle_can_node" (single "ros__parameters" (single "can_topic" (.scalar "/can")))

/-- Nested maps for dotted keys make a namespace, which is stripped.  A leaf in the place of the
namespace is lost, or the file cannot be loaded. -/
theorem namespace_appears :
    (flatDoc.ConfigDocument ∧ nestedDoc.ConfigDocument ∧ flatDoc.parameterTree = flatDoc ∧
      Rewrites flatDoc nestedDoc ∧ ∃ params params', oneFile flatDoc = .ok params ∧
        oneFile nestedDoc = .ok params' ∧ params.lookup (str "can_topic") = none ∧
        params'.lookup (str "can_topic") = some (.scalar "/can")) ∧
    (∀ leaf ∈ [.null, .sequence [.scalar "a"]],
      (single "vehicle_can_node" leaf).ConfigDocument ∧
      (single "vehicle_can_node" leaf).Defines "vehicle_can_node" leaf ∧
      ∃ params, oneFile (single "vehicle_can_node" leaf) = .ok params ∧
        params.lookup (str "vehicle_can_node") = none) ∧
    (single "vehicle_can_node" (.scalar "a")).ConfigDocument ∧
      oneFile (single "vehicle_can_node" (.scalar "a")) =
        .error ⟨"operator[] call on a scalar"⟩ := by
  have hFlat : flatDoc.ConfigDocument := single_config (by decide) trivial (by decide)
  have hNested : nestedDoc.ConfigDocument := single_config (by decide)
    (single_stringKeys (by decide) (single_stringKeys (by decide) trivial)) (by decide)
  have hRewrites : Rewrites flatDoc nestedDoc := .symm _ _ (.trans _ _ _
    (.rel _ _ (.inside [] [] _ (single_inlines "ros__parameters" "can_topic" _)))
    (.rel _ _ (single_inlines "vehicle_can_node" "ros__parameters.can_topic" _)))
  refine ⟨⟨hFlat, hNested, rfl, hRewrites, _, _, rfl, rfl, rfl, rfl⟩, ?_,
    single_config (by decide) trivial (by decide), rfl⟩
  rw [List.forall_mem_cons, List.forall_mem_singleton]
  exact ⟨⟨single_config (by decide) trivial (by decide), List.mem_cons_self, _, rfl, rfl⟩,
    single_config (by decide) trivial (by decide), List.mem_cons_self, _, rfl, rfl⟩

end Converter

end VehicleCanDecoder
