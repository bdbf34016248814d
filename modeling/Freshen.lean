import Freshen.Code.Draft
import Freshen.Command.Run
import Freshen.Config.Basic
import Freshen.Estree.Load
import Freshen.Main
import Freshen.Proofs.AbsentFields
import Freshen.Proofs.ArgumentsOwner
import Freshen.Proofs.ArrayHoles
import Freshen.Proofs.ContextRuns
import Freshen.Proofs.EncodingRead
import Freshen.Proofs.FreshNames
import Freshen.Proofs.Hoisting
import Freshen.Proofs.Interleaving
import Freshen.Proofs.Layout
import Freshen.Proofs.Capture
import Freshen.Proofs.DeclarationSites
import Freshen.Proofs.NumeralRounding
import Freshen.Proofs.PrefixOperators
import Freshen.Proofs.ReachedNodes
import Freshen.Proofs.RefusedNodes
import Freshen.Proofs.ScopeStack
import Freshen.Proofs.StringLiterals
import Freshen.Proofs.UniqueReading
import Freshen.Proofs.VarScope
import Freshen.Proofs.OwnNames
import Freshen.Proofs.Edits
import Freshen.Proofs.InputSearch
import Freshen.Proofs.Settings
import Freshen.Proofs.HoistedBindings
import Freshen.Proofs.StatementStarts
import Freshen.Proofs.OptionalAccess
