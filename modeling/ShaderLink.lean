import ShaderLink.Backend.Rehearsal
import ShaderLink.Backend.Traced
import ShaderLink.Link.Visit
import ShaderLink.Module.Spelling
import ShaderLink.Pipeline.Run
import ShaderLink.Pipeline.Session
import ShaderLink.Proofs.Link.Composition
import ShaderLink.Proofs.Link.Locality
import ShaderLink.Proofs.Link.Names
import ShaderLink.Proofs.Link.Order
import ShaderLink.Proofs.Link.Recursion
import ShaderLink.Proofs.Link.Thinning
import ShaderLink.Proofs.Link.Turns
import ShaderLink.Proofs.Module.Grammar
import ShaderLink.Proofs.Module.Spelling
import ShaderLink.Proofs.Pipeline.Cache
import ShaderLink.Proofs.Pipeline.CarriedOut
import ShaderLink.Proofs.Pipeline.Course
import ShaderLink.Proofs.Pipeline.Deferred
import ShaderLink.Proofs.Pipeline.Failure
import ShaderLink.Proofs.Pipeline.Fresh
import ShaderLink.Proofs.Pipeline.Images
import ShaderLink.Proofs.Pipeline.Protocol
import ShaderLink.Proofs.Pipeline.Registration
import ShaderLink.Proofs.Pipeline.Saved
import ShaderLink.Proofs.Pipeline.Targets
import ShaderLink.Proofs.Pipeline.Texel
import ShaderLink.Proofs.Program.Generate
import ShaderLink.Proofs.Program.Mentions
import ShaderLink.Proofs.Queue.Notes
import ShaderLink.Proofs.Queue.Session
import ShaderLink.Proofs.Registry.History
import ShaderLink.Proofs.Text.Listing
import ShaderLink.Proofs.Uniforms
