/-!
# Directories that discovery leaves out

Some directories are never entered. Others are left out unless the configuration names its own list,
which then takes their place.
-/

namespace Redline.Excludes

/-- Directories that are never entered: the data of version control systems and of this program. -/
def always : List String :=
  [".git", ".svn", ".hg", ".bzr", ".editplane"]

/-- Directories that are left out unless configured otherwise: dependencies, caches and build
outputs. -/
def byDefault : List String :=
  ["node_modules", ".npm", ".yarn", ".pnpm-store", "bower_components", ".next", ".nuxt", ".turbo",
    "venv", ".venv", "__pycache__", ".pytest_cache", ".mypy_cache", ".ruff_cache", ".tox",
    "target", ".gradle", "dist", "build", "out", "coverage", ".nyc_output", ".idea", ".vscode",
    ".cache", "vendor"]

/-- The directories left out under a configuration; none means the default. -/
def effective (configured : Option (List String)) : List String :=
  always ++ configured.getD byDefault

end Redline.Excludes
