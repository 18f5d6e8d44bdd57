import BlockSchematic.Main
import BlockSchematic.Command.Run
import BlockSchematic.Editor
import BlockSchematic.Symbol.Library
import BlockSchematic.Proofs.NetNames
import BlockSchematic.Proofs.LayoutCompletion
import BlockSchematic.Proofs.SymbolDescription
import BlockSchematic.Proofs.Balance
import BlockSchematic.Proofs.WiringByName
import BlockSchematic.Proofs.NetWidths
import BlockSchematic.Proofs.ExportedEntity
import BlockSchematic.Proofs.PortlessEntity
import BlockSchematic.Proofs.DrawnSymbol
import BlockSchematic.Proofs.Candidates
import BlockSchematic.Proofs.DocumentRoundTrip
import BlockSchematic.Proofs.LayeredRoutes
import BlockSchematic.Proofs.ComponentDeclarations
import BlockSchematic.Proofs.InertGeometry
import BlockSchematic.Proofs.TokenSubstitution
import BlockSchematic.Proofs.LongestPaths
import BlockSchematic.Proofs.FileWrites
import BlockSchematic.Proofs.Sessions
import BlockSchematic.Proofs.DocumentEdits
import BlockSchematic.Proofs.FirstWires
import BlockSchematic.Proofs.DeclaredSignals
import BlockSchematic.Proofs.DefaultPins
import BlockSchematic.Proofs.EntitySpelling
import BlockSchematic.Proofs.StableLayers
import BlockSchematic.Proofs.InstanceNames
import BlockSchematic.Proofs.EntityGrammar
import BlockSchematic.Proofs.BasicIdentifier
import BlockSchematic.Proofs.DrawnGeometry
import BlockSchematic.Proofs.EditedInstances
import BlockSchematic.Proofs.GlueAlignment
import BlockSchematic.Proofs.SymbolReordering
import BlockSchematic.Proofs.CodeCutting
import BlockSchematic.Proofs.PortLabels
import BlockSchematic.Proofs.LayeredPlaces
import BlockSchematic.Proofs.AcceptedPositions
import BlockSchematic.Proofs.RepeatedReadings
import BlockSchematic.Proofs.ForestCalls
import BlockSchematic.Proofs.FreshNames
import BlockSchematic.Proofs.PortIds
