import ShaderEffect.Number.Scalar
import ShaderEffect.Table.Lookup
import ShaderEffect.Program.Run
import ShaderEffect.Shader.Encode
import ShaderEffect.Image.Encode
import ShaderEffect.Effect.Pool
import ShaderEffect.Effect.Block
import ShaderEffect.Effect.Query
import ShaderEffect.Effect.SkipList
import ShaderEffect.Effect.Begin
import ShaderEffect.Effect.Describe
import ShaderEffect.Effect.Usage
import ShaderEffect.Value.Scalar
import ShaderEffect.Value.Vector
import ShaderEffect.Value.Matrix
import ShaderEffect.Value.Raw
import ShaderEffect.Value.Object
import ShaderEffect.Host
import ShaderEffect.Proofs.Device
import ShaderEffect.Proofs.Host.Call
import ShaderEffect.Proofs.Host.Layout
import ShaderEffect.Proofs.Host.Making
import ShaderEffect.Proofs.Host.Steps
import ShaderEffect.Proofs.Plan.Shape
import ShaderEffect.Proofs.Host.Effects
import ShaderEffect.Proofs.Pass.Commit
import ShaderEffect.Proofs.Pass.Restore
import ShaderEffect.Proofs.Pass.Subrun
import ShaderEffect.Proofs.Image.WellFormed
import ShaderEffect.Proofs.Image.Sound
import ShaderEffect.Proofs.Link.Tile
import ShaderEffect.Proofs.Link.Trees
import ShaderEffect.Proofs.Host.Bounded
import ShaderEffect.Proofs.Image.Consumes
import ShaderEffect.Proofs.Image.Described
import ShaderEffect.Proofs.Image.Writes
import ShaderEffect.Proofs.Image.Filled
import ShaderEffect.Proofs.Image.RoundTrip
import ShaderEffect.Proofs.Program.Valid
import ShaderEffect.Proofs.Program.Strict
import ShaderEffect.Proofs.Program.Answers
import ShaderEffect.Proofs.ConstantTable.Written
import ShaderEffect.Proofs.Program.Written
import ShaderEffect.Proofs.Host.LastWrite
import ShaderEffect.Proofs.Host.Apart
import ShaderEffect.Proofs.Pass.Usage
import ShaderEffect.Proofs.Pass.Capture
import ShaderEffect.Proofs.Pass.Recording
import ShaderEffect.Proofs.Host.Replay
import ShaderEffect.Proofs.Image.Longer
import ShaderEffect.Proofs.Link.Bound
import ShaderEffect.Proofs.Host.Created
import ShaderEffect.Proofs.Link.Objects
import ShaderEffect.Proofs.Host.Typed
import ShaderEffect.Proofs.Pass.Lookup
import ShaderEffect.Proofs.Host.Protocol
import ShaderEffect.Proofs.Shader.Written
import ShaderEffect.Proofs.Tree.Grammar
import ShaderEffect.Proofs.Tree.Search
import ShaderEffect.Proofs.Tree.Spelling
import ShaderEffect.Proofs.Link.Standing
import ShaderEffect.Proofs.Link.Arena
import ShaderEffect.Proofs.Value.Grounded
import ShaderEffect.Proofs.Value.Matrix
import ShaderEffect.Proofs.Value.Array
import ShaderEffect.Proofs.Value.Raw
import ShaderEffect.Proofs.Pass.Described
import ShaderEffect.Proofs.Program.Results
import ShaderEffect.Proofs.Value.Registers
import ShaderEffect.Proofs.Pass.Lights
import ShaderEffect.Proofs.Link.Supplies
import ShaderEffect.Proofs.Host.Reset
import ShaderEffect.Proofs.Value.Inputs
import ShaderEffect.Proofs.Pass.Order
import ShaderEffect.Proofs.Link.Notes
import ShaderEffect.Proofs.Tree.Elements
import ShaderEffect.Proofs.Program.Comments
import ShaderEffect.Proofs.Program.Exhausts
import ShaderEffect.Proofs.ConstantTable.Texts
import ShaderEffect.Proofs.Program.Lengths
import ShaderEffect.Proofs.Program.Truncated
import ShaderEffect.Proofs.Program.Padding
import ShaderEffect.Proofs.Device.Defaults
