import TagStore.Compression.EnginePool
import TagStore.Config.Json
import TagStore.Main
import TagStore.Network.Simulated
import TagStore.Proofs.Client.Accounting
import TagStore.Proofs.Client.Ambiguity
import TagStore.Proofs.Client.Attribution
import TagStore.Proofs.Client.Blocks
import TagStore.Proofs.Client.SecondAttempt
import TagStore.Proofs.Client.ValueSize
import TagStore.Proofs.Client.VersionToken
import TagStore.Proofs.Cluster.Addresses
import TagStore.Proofs.Cluster.Fallback
import TagStore.Proofs.Cluster.Probing
import TagStore.Proofs.Cluster.Rotation
import TagStore.Proofs.Compression.Classified
import TagStore.Proofs.Compression.Engines
import TagStore.Proofs.Node.Mirrored
import TagStore.Proofs.Payload.Bytes
import TagStore.Proofs.Program.Lookup
import TagStore.Proofs.Program.Settings
import TagStore.Proofs.Wire.NextLine
import TagStore.Proofs.Wire.Number
import TagStore.Proofs.Wire.ReadBack
import TagStore.Proofs.Wire.Sending
