import Redline.Main
import Redline.Status
import Redline.Proofs.Backend.Registration
import Redline.Proofs.Command.Run
import Redline.Proofs.Config.Precedence
import Redline.Proofs.Disk.Contents
import Redline.Proofs.Disk.Walk
import Redline.Proofs.Distinct
import Redline.Proofs.Editset.Account
import Redline.Proofs.Editset.Application
import Redline.Proofs.Editset.Splice
import Redline.Proofs.Editset.Drift
import Redline.Proofs.Editset.Selection
import Redline.Proofs.Editset.Independent
import Redline.Proofs.Editset.Keys
import Redline.Proofs.FileRename.Conflicts
import Redline.Proofs.FileRename.Account
import Redline.Proofs.FileRename.Conservation
import Redline.Proofs.FileRename.Found
import Redline.Proofs.FileRename.Stored
import Redline.Proofs.Editset.Twice
import Redline.Proofs.Editset.Unchanged
import Redline.Proofs.Glob.Language
import Redline.Proofs.Link.Exports
import Redline.Proofs.Link.Termination
import Redline.Proofs.Loading
import Redline.Proofs.Log.Levels
import Redline.Proofs.Path
import Redline.Proofs.Project.Conflicts
import Redline.Proofs.Project.Consistency
import Redline.Proofs.Project.Destructuring
import Redline.Proofs.Project.Fresh
import Redline.Proofs.Project.History
import Redline.Proofs.Project.Positions
import Redline.Proofs.Project.Union
import Redline.Proofs.Scope.Lexical
import Redline.Proofs.Search.Captures
import Redline.Proofs.Search.Framing
import Redline.Proofs.Search.Identified
import Redline.Proofs.Search.Replacement
import Redline.Proofs.Symbol.Partition
import Redline.Proofs.Tree.Codecs
import Redline.Proofs.Tree.Offsets
import Redline.Proofs.Yaml.Paths
import Redline.Proofs.Json.Strings
import Redline.Proofs.Json.Values
import Redline.Proofs.Store
