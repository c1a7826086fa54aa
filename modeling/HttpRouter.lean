import HttpRouter.Router.Build
import HttpRouter.Router.Cors
import HttpRouter.Router.Describe
import HttpRouter.Handler.Script
import HttpRouter.Text.Scalar
import HttpRouter.Proofs.Route.Judgement
import HttpRouter.Proofs.Router.FirstMatch
import HttpRouter.Proofs.Route.Growth
import HttpRouter.Proofs.Router.History
import HttpRouter.Proofs.Router.AllowedMethods
import HttpRouter.Proofs.Http.CleanPath
import HttpRouter.Proofs.Router.Redirects
import HttpRouter.Proofs.Regex.Straight
import HttpRouter.Proofs.Regex.Reading
import HttpRouter.Proofs.Regex.Gaps
import HttpRouter.Proofs.Regex.Greedy
import HttpRouter.Proofs.Pattern.Beginning
import HttpRouter.Proofs.Http.Bindings
import HttpRouter.Proofs.Pattern.Names
import HttpRouter.Proofs.Pattern.Faithful
import HttpRouter.Proofs.Pattern.Language
import HttpRouter.Proofs.Pattern.Slash
import HttpRouter.Proofs.Route.Moves
import HttpRouter.Proofs.Route.Prefixes
import HttpRouter.Proofs.Router.Nesting
import HttpRouter.Proofs.Router.StrictSlash
import HttpRouter.Proofs.Route.Ownership
import HttpRouter.Proofs.Router.OwnTemplates
import HttpRouter.Proofs.Router.Pruning
import HttpRouter.Proofs.Router.Failure
import HttpRouter.Proofs.Router.Composition
import HttpRouter.Proofs.Router.Isolation
import HttpRouter.Proofs.Router.Announced
import HttpRouter.Proofs.Router.Vacant
import HttpRouter.Proofs.Http.CanonicalPath
import HttpRouter.Proofs.Router.Locations
import HttpRouter.Proofs.Pattern.Caching
import HttpRouter.Proofs.Router.Scopes
import HttpRouter.Proofs.Http.Headers
import HttpRouter.Proofs.Router.Cors
import HttpRouter.Proofs.Unicode.CaseFold
import HttpRouter.Proofs.Regex.Renaming
import HttpRouter.Proofs.Regex.Caseless
import HttpRouter.Proofs.Pattern.Ports
import HttpRouter.Proofs.Pattern.Hosts
import HttpRouter.Proofs.Regex.OpenEnd
import HttpRouter.Proofs.Pattern.Queries
import HttpRouter.Proofs.Route.Queries
import HttpRouter.Proofs.Pattern.Braces
import HttpRouter.Proofs.Pattern.Positions
import HttpRouter.Proofs.Pattern.Slicing
import HttpRouter.Proofs.Pattern.Errors
import HttpRouter.Proofs.Route.Gains
import HttpRouter.Proofs.Route.Taken
import HttpRouter.Proofs.Router.Likeness
import HttpRouter.Proofs.Route.Order
import HttpRouter.Proofs.Router.Agreement
import HttpRouter.Proofs.Router.Confined
import HttpRouter.Proofs.Router.Narrowing
import HttpRouter.Proofs.Router.Deferral
import HttpRouter.Proofs.Text.Utf8
import HttpRouter.Proofs.Text.Slices
import HttpRouter.Proofs.Text.Percent
import HttpRouter.Proofs.Http.WrittenQuery
import HttpRouter.Proofs.Http.Response
import HttpRouter.Proofs.Router.Lookup
import HttpRouter.Proofs.Route.Ranks
import HttpRouter.Proofs.Route.Additions
import HttpRouter.Proofs.Router.Ledger
import HttpRouter.Proofs.Route.Continuation
import HttpRouter.Proofs.Router.Chronicle
import HttpRouter.Proofs.Router.Continuation
