import Shmchan.Channel.Closing
import Shmchan.ByteChannel.Closing

open process shmchan.endpoint

namespace shmchan

end shmchan
