import TreeCheck.Path

/-!
# Project configuration

A project has a name, a list of tree files, and maybe a file that takes the metrics records. Its
paths are relative to the directory of the project unless they are absolute.
-/

set_option autoImplicit false

namespace TreeCheck

structure Config where
  name : String
  /-- The tree files to check, in order. -/
  trees : List String
  /-- The file for the metrics records, which are printed when there is none. -/
  metrics : Option String := none
deriving DecidableEq, Repr

namespace Config

def fileName : String :=
  "sema.toml"

/-- The tree files of a project that lists none. -/
def defaultTrees : List String :=
  ["trees/main.toml"]

def new (name : String) : Config :=
  { name, trees := defaultTrees }

def treePaths (config : Config) (root : String) : List String :=
  config.trees.map (Path.join root)

def metricsPath (config : Config) (root : String) : Option String :=
  config.metrics.map (Path.join root)

end Config

end TreeCheck
