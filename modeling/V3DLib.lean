import V3DLib.Loop
import V3DLib.Target.Syntax
import V3DLib.Target.Instr
import V3DLib.Target.Encode
import V3DLib.Target.Decode
import V3DLib.Target.RoundTrip
import V3DLib.Target.Disassemble
import V3DLib.Target.Lossless
import V3DLib.Target.CFG
import V3DLib.Target.Liveness
import V3DLib.Target.LivenessFixpoint
import V3DLib.Target.Subst
import V3DLib.Target.Emulator
import V3DLib.Vc4.RegAlloc
import V3DLib.V3d.SourceTranslate
import V3DLib.V3d.Encode
import V3DLib.Allocation
import V3DLib.FirstFit
import V3DLib.AllocationSimulation
import V3DLib.Pressure
