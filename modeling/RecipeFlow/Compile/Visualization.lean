import RecipeFlow.Compile.Shell

/-! Visualization recipes as graphs. Settings are staged and the input is cut into batches, side by
side; then each batch is tiled in a task of its own. All of it happens in the recipe's directory on
the shared volume, where published data lies, so nothing is left to publish. -/
namespace RecipeFlow.Visualization

def tilingImage : String := "ghcr.io/rushirajnenuji/viz-staging:latest"

def configImage : String := "alpine:latest"

def stageConfigName : String := "stage-viz-config"

def batchingName : String := "batching"

def tilingName : String := "tiling"

/-- Cuts the input into batches and prints the list of their paths. -/
def batchScript : String :=
  "\n".intercalate [
    "import json",
    "import os",
    "import sys",
    "from pathlib import Path",
    "",
    "import geopandas as gpd",
    "",
    "gdf = gpd.read_file(os.environ[\"INPUT_PATH\"])",
    "size = int(os.environ[\"BATCH_SIZE\"])",
    "out = Path(os.environ[\"BATCH_DIR\"])",
    "out.mkdir(parents=True, exist_ok=True)",
    "",
    "chunks = []",
    "for idx, start in enumerate(range(0, len(gdf), size)):",
    "    path = out / f\"chunk-\x7bidx\x7d.gpkg\"",
    "    print(f\"Writing chunk \x7bidx\x7d to \x7bpath\x7d\", file=sys.stderr)",
    "    gdf[start:start + size].to_file(filename=path, driver=\"GPKG\")",
    "    chunks.append(str(path))",
    "",
    "print(json.dumps(chunks))",
    ""]

/-- Tiles one batch. -/
def tilingScript : String :=
  "\n".intercalate [
    "import json",
    "import os",
    "import sys",
    "from pathlib import Path",
    "",
    "from pdgstaging import TileStager",
    "",
    "config = json.loads(Path(os.environ[\"CONFIG_PATH\"]).read_text())",
    "chunk = os.environ[\"CHUNK_FILEPATH\"]",
    "print(f\"Staging \x7bchunk\x7d\", file=sys.stderr)",
    "TileStager(config, check_footprints=False).stage(chunk)",
    "print(\"Staging done\", file=sys.stderr)",
    ""]

/-- The line that ends a here-document. -/
def endMark : String := "EOF"

/-- The directories below a recipe's own. -/
def directories : List String :=
  ["input", "batch", "output/staged", "output/geotiff", "output/3dtiles"]

/-- Makes the recipe's directories and writes its settings from a here-document. -/
def stageConfigScript (root configJson : String) : String :=
  " && \\\n".intercalate (directories.map fun d => "mkdir -p " ++ root ++ "/" ++ d) ++
    " && \\\ncat > " ++ root ++ "/config.json << '" ++ endMark ++ "'\n" ++ configJson ++ "\n" ++
    endMark

/-- A container that runs a Python script with the shared volume mounted. -/
def python (script image : String) : Container where
  image := some image
  command := ["python", "-c"]
  args := [script]
  mounts := [⟨volumeMount, none⟩]

/-- The recipe's directory on the shared volume. -/
def rootDir (id : String) : String :=
  volumeMount ++ "/" ++ id

def stageConfigTask (id configJson : String) : Task where
  name := stageConfigName
  container := { Container.shell (stageConfigScript (rootDir id) configJson) with
    image := some configImage
    mounts := [⟨volumeMount, none⟩] }

def batchingTask (id image url : String) (batchSize : Nat) : Task where
  name := batchingName
  container :=
    let inputPath := rootDir id ++ "/input/input.gpkg"
    let batchDir := rootDir id ++ "/batch"
    { python batchScript image with
      env := Table.ofList [("INPUT_PATH", inputPath), ("BATCH_DIR", batchDir),
        ("BATCH_SIZE", toString batchSize)]
      inputArtifacts := [(Artifact.named "batch-input" inputPath).fromUrl url]
      outputArtifacts := [Artifact.named "batch-output" batchDir] }

def tilingTask (id image : String) : Task where
  name := tilingName
  container := { python tilingScript image with
    env := Table.ofList [("CONFIG_PATH", rootDir id ++ "/config.json")] }
  fanOut := some ⟨batchingName, "CHUNK_FILEPATH"⟩

/-- Only the shared volume can hold the result, and only a URL can be cut into batches. -/
def graph (r : Recipe) (w : Visualization) : Except Fault Graph :=
  if r.output ≠ .pvc then
    .error (.invalid Code.recipeUnsupportedOutput
      ("visualization workflows require pvc output, got " ++ r.output.text) (some "output.type"))
  else
    match r.inputs with
    | [] => .error (.invalid Code.recipeEmptyInput "visualization workflows need an input"
        (some "input.params"))
    | i :: _ =>
      if i.kind ≠ .url then .error (.unsupported i.kind.text i.value)
      else
        let image := r.image.getD tilingImage
        .ok (((ShellWorkflow.emptyGraph r).append "prepare" .auxiliary
          [stageConfigTask r.id w.configJson, batchingTask r.id image i.value w.batchSize]).append
            tilingName (.process 0) [tilingTask r.id image])

end RecipeFlow.Visualization
