import TornadoHttp2.Alignment
import TornadoHttp2.BitOperations
import TornadoHttp2.IgnoredFrames
import TornadoHttp2.Link
import TornadoHttp2.LoopExits
import TornadoHttp2.NeverIndexed
import TornadoHttp2.ProtocolChoice
import TornadoHttp2.RefusedBlocks
import TornadoHttp2.Representations
import TornadoHttp2.SendingStops
import TornadoHttp2.Settling
import TornadoHttp2.TableHistory
import TornadoHttp2.TreeGrowth
import TornadoHttp2.UpgradeReplay
