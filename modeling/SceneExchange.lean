import SceneExchange.Batch.Export
import SceneExchange.Batch.Import
import SceneExchange.Bytes.Cell
import SceneExchange.Graph.Wiring
import SceneExchange.Json.Writer
import SceneExchange.Main
import SceneExchange.Markup.Draft
import SceneExchange.Material.Report
import SceneExchange.Proofs.AnimatedActors
import SceneExchange.Proofs.Baking
import SceneExchange.Proofs.ChannelTags
import SceneExchange.Proofs.ColorTexts
import SceneExchange.Proofs.Coordinates
import SceneExchange.Proofs.Descent
import SceneExchange.Proofs.FirstUse
import SceneExchange.Proofs.GroupScopes
import SceneExchange.Proofs.HeightTextures
import SceneExchange.Proofs.InstanceMaterials
import SceneExchange.Proofs.Labels
import SceneExchange.Proofs.Leftovers
import SceneExchange.Proofs.LegalNames
import SceneExchange.Proofs.LibraryLabels
import SceneExchange.Proofs.Linking
import SceneExchange.Proofs.LoadedTextures
import SceneExchange.Proofs.MeshComplete
import SceneExchange.Proofs.Printing
import SceneExchange.Proofs.Reordering
import SceneExchange.Proofs.Serving
import SceneExchange.Proofs.ShownFrame
import SceneExchange.Proofs.SkippedTextures
import SceneExchange.Proofs.TextureElements
import SceneExchange.Proofs.TextureHints
import SceneExchange.Proofs.TriangleSlots
import SceneExchange.Proofs.Views
import SceneExchange.Wire.Fingerprint
import SceneExchange.Wire.Imported
import SceneExchange.Workload
