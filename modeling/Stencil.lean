import Stencil.Error.Pretty
import Stencil.Render
import Stencil.Value.Equality
import Stencil.Value.Json
import Stencil.Proofs.Block.Tree
import Stencil.Proofs.Engine.Cache
import Stencil.Proofs.Engine.Operations
import Stencil.Proofs.Engine.Restore
import Stencil.Proofs.Json.RoundTrip
import Stencil.Proofs.Name
import Stencil.Proofs.Outline.Compiled
import Stencil.Proofs.Outline.Flatten
import Stencil.Proofs.Outline.Limit
import Stencil.Proofs.Outline.Notices
import Stencil.Proofs.Outline.Unlimited
import Stencil.Proofs.Render.Cache
import Stencil.Proofs.Render.Climb
import Stencil.Proofs.Render.Iterate
import Stencil.Proofs.Render.Outcome
import Stencil.Proofs.Render.Plain
import Stencil.Proofs.Render.Steps
import Stencil.Proofs.Saved.RoundTrip
import Stencil.Proofs.Table
import Stencil.Proofs.Token.Cover
import Stencil.Proofs.Value.Plain
import Stencil.Proofs.Token.Grammar
import Stencil.Proofs.Directive
import Stencil.Proofs.Outline.Account
import Stencil.Proofs.Outline.Markup
import Stencil.Proofs.Render.Absolute
import Stencil.Proofs.Render.Depth
import Stencil.Proofs.Render.Output
import Stencil.Proofs.Render.Sound
import Stencil.Proofs.Render.Levels
import Stencil.Proofs.Saved.Lossless
import Stencil.Proofs.Render.Text
import Stencil.Proofs.Render.StandIn
import Stencil.Proofs.Render.Pure
import Stencil.Proofs.Render.Fragment
import Stencil.Proofs.Render.Ancestor
import Stencil.Proofs.Render.Undefined
import Stencil.Proofs.Render.Escaped
import Stencil.Proofs.Render.Staged
import Stencil.Proofs.Render.Local
import Stencil.Proofs.Render.Shadow
import Stencil.Proofs.Render.Located
import Stencil.Proofs.Saved.Accepted
import Stencil.Proofs.Engine.Stored
import Stencil.Proofs.Token.Append
import Stencil.Proofs.Outline.Append
import Stencil.Proofs.Outline.MissingEnd
import Stencil.Proofs.Outline.Reconstructed
import Stencil.Proofs.Render.Members
import Stencil.Proofs.Outline.Otherwise
import Stencil.Proofs.Saved.Version
import Stencil.Proofs.Text.Unescape
import Stencil.Proofs.Render.Evaluated
import Stencil.Proofs.Error.Excerpt
import Stencil.Proofs.Saved.Misfit
import Stencil.Proofs.Render.Settled
